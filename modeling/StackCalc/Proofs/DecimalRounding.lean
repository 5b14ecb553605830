import Mathlib
import StackCalc.Decimal.Shortest
import StackCalc.Proofs.NearestDouble

/-
  The double that a decimal is read as.

  Short decimals are multiplied or divided by a power of
  ten that is a double itself, and others are rounded from
  exact numbers, unless they are clearly out of range. All
  of these give the double nearest to the decimal, so two
  spellings of a decimal are read as the same double.

  Main declarations:
    * `Double.rounded`
    * `Double.unpack_pack_of_isCanonical`
    * `Double.IsExactly`
    * `Decimal.Scientific.value`
    * `Decimal.Scientific.toFloat_eq_rounded`
    * `Decimal.Scientific.toFloat_congr`
-/

------------------------------------------------------------
-- Packing
------------------------------------------------------------

namespace StackCalc

namespace Double

open Float.Model Float.Model.UnpackedFloat

/- The positive double nearest to a positive fraction. -/
def rounded (q : ℚ) : Float :=
  .ofModel (.pack (nearest .positive q))

/- Bits with a leading bit before those of the mantissa. -/
theorem unpack_normal
    (s : Sign)
    {b : Nat}
    (hPos : 0 < b)
    (hb : b < 2047)
    (v : BitVec 52) :
    UnpackedFloat.unpack Format.binary64
        (packComponents Format.binary64 s
          (BitVec.ofNat 11 b) v) =
      .finite s (2 ^ 52 + v.toNat) (b - 1075)
        (by positivity) := by
  have hField : (BitVec.ofNat 11 b).toNat = b := by
    rw [BitVec.toNat_ofNat]
    omega
  have hNotAll : BitVec.ofNat 11 b ≠ -1#11 := by
    intro h
    rw [h] at hField
    simp at hField
    omega
  have hNotZero : BitVec.ofNat 11 b ≠ 0#11 := by
    intro h
    rw [h] at hField
    simp at hField
    omega
  have hLeading : (1#1 ++ v).toNat = 2 ^ 52 + v.toNat := by
    have hOr := Nat.two_pow_add_eq_or_of_lt v.isLt 1
    rw [Nat.mul_one] at hOr
    rw [hOr]
    exact BitVec.toNat_append 1#1 v
  have hBias : (Format.binary64.exponentBias : ℤ) = 1023 := rfl
  simp only [UnpackedFloat.unpack,
    unpackExponent_packComponents,
    unpackMantissa_packComponents, unpackSign_packComponents,
    Sign.ofBitVec_toBitVec, if_neg hNotAll, if_neg hNotZero,
    hField, hLeading, hBias]
  rfl

/- Bits without one, on the last place that there is. -/
theorem unpack_subnormal
    (s : Sign)
    {v : BitVec 52}
    (hv : 0 < v.toNat) :
    UnpackedFloat.unpack Format.binary64
        (packComponents Format.binary64 s 0#11 v) =
      .finite s v.toNat (-1074) hv := by
  have hNotZero : v ≠ 0#52 := by
    rintro rfl
    simp at hv
  simp only [UnpackedFloat.unpack,
    unpackExponent_packComponents,
    unpackMantissa_packComponents, unpackSign_packComponents,
    Sign.ofBitVec_toBitVec]
  rw [if_neg (by decide), dif_neg hNotZero]
  rfl

theorem finite_congr
    {s : Sign}
    {m m' : Nat}
    {e e' : ℤ}
    {hm : 0 < m}
    {hm' : 0 < m'}
    (hMantissa : m = m')
    (hExponent : e = e') :
    UnpackedFloat.finite s m e hm = .finite s m' e' hm' := by
  subst hMantissa hExponent
  rfl

/- A double of the format is unpacked as it was packed. -/
theorem unpack_pack_of_isCanonical
    {s : Sign}
    {m : Nat}
    {e : ℤ}
    (hm : 0 < m)
    (h : IsCanonical m e)
    (hHigh : e ≤ 971) :
    UnpackedFloat.unpack Format.binary64
        (UnpackedFloat.pack Format.binary64
          (.finite s m e hm)) = .finite s m e hm := by
  unfold IsCanonical at h
  have hBias : (Format.binary64.exponentBias : ℤ) = 1023 := rfl
  have hFits :
      ¬ 2 ^ 11 ≤ (e + 1023 + (52 : Nat)).toNat + 1 := by
    omega
  have hBits : Format.binary64.mantissaBits = 53 := rfl
  have hTo : m < 2 ^ (m.log2 + 1) := Nat.lt_log2_self
  simp only [UnpackedFloat.pack, hBias, hBits, if_neg hFits]
  by_cases hLog : m.log2 + 1 = 53
  · have hFull : m.log2 = 52 := by
      omega
    have hFrom : 2 ^ m.log2 ≤ m := Nat.log2_self_le hm.ne'
    rw [hFull] at hFrom hTo
    rw [if_pos hLog, unpack_normal s (by omega) (by omega)]
    apply finite_congr
    · rw [BitVec.toNat_ofNat]
      omega
    · omega
  · have hShort : m.log2 ≤ 51 := by
      omega
    have hLess : m < 2 ^ 52 :=
      hTo.trans_le (Nat.pow_le_pow_right (by decide) (by omega))
    have hSame : (BitVec.ofNat 52 m).toNat = m := by
      rw [BitVec.toNat_ofNat, Nat.mod_eq_of_lt hLess]
    rw [if_neg hLog, unpack_subnormal s (by rwa [hSame])]
    apply finite_congr hSame
    omega

/- The fields of the bits of a double. -/
theorem toNat_unpackExponent
    (b : BitVec 64) :
    (@unpackExponent Format.binary64 b).toNat =
      b.toNat / 2 ^ 52 % 2 ^ 11 := by
  rw [unpackExponent_def, BitVec.extractLsb'_toNat,
    Nat.shiftRight_eq_div_pow]

theorem toNat_unpackMantissa
    (b : BitVec 64) :
    (@unpackMantissa Format.binary64 b).toNat =
      b.toNat % 2 ^ 52 := by
  rw [unpackMantissa_def, BitVec.extractLsb'_toNat,
    Nat.shiftRight_zero]

/- The mantissa and the exponent of a finite double. -/
theorem fields_of_unpack
    {b : BitVec 64}
    {s : Sign}
    {m : Nat}
    {e : ℤ}
    {hm : 0 < m}
    (h : UnpackedFloat.unpack Format.binary64 b =
      .finite s m e hm) :
    (b.toNat / 2 ^ 52 % 2 ^ 11 = 0 ∧
        m = b.toNat % 2 ^ 52 ∧ e = -1074) ∨
      (0 < b.toNat / 2 ^ 52 % 2 ^ 11 ∧
        b.toNat / 2 ^ 52 % 2 ^ 11 < 2047 ∧
        m = 2 ^ 52 + b.toNat % 2 ^ 52 ∧
        e = (b.toNat / 2 ^ 52 % 2 ^ 11 : ℕ) - 1075) := by
  have hField := toNat_unpackExponent b
  have hMantissa := toNat_unpackMantissa b
  have hSplit :=
    @packComponents_unpackSign_unpackExponent_unpackMantissa
      Format.binary64 b
  generalize @unpackExponent Format.binary64 b = f at *
  generalize @unpackMantissa Format.binary64 b = v at *
  generalize Sign.ofBitVec (@unpackSign Format.binary64 b) = t
    at *
  rw [← hField, ← hMantissa]
  rw [← hSplit] at h
  by_cases hAll : f = -1#11
  · simp only [hAll, UnpackedFloat.unpack,
      unpackExponent_packComponents, if_true] at h
    split at h
    · simp at h
    · simp at h
  · have hLess : f.toNat < 2047 := by
      have hNot : f.toNat ≠ 2047 := fun hEq =>
        hAll (BitVec.eq_of_toNat_eq hEq)
      have hLt := f.isLt
      omega
    by_cases hZero : f = 0#11
    · have hv : 0 < v.toNat := by
        rw [Nat.pos_iff_ne_zero]
        intro hNone
        have hvZero : v = 0#52 := BitVec.eq_of_toNat_eq hNone
        rw [hZero, hvZero] at h
        have hPacked := @unpack_packedZero Format.binary64 t
        exact absurd (hPacked.symm.trans h) (by simp)
      rw [hZero, unpack_subnormal t hv] at h
      rcases finite.inj h with ⟨-, rfl, rfl⟩
      exact .inl ⟨by simp [hZero], rfl, rfl⟩
    · have hPos : 0 < f.toNat := by
        rw [Nat.pos_iff_ne_zero]
        intro hNone
        exact hZero (BitVec.eq_of_toNat_eq hNone)
      have hOf : BitVec.ofNat 11 f.toNat = f := by
        simp
      rw [← hOf, unpack_normal t hPos hLess] at h
      rcases finite.inj h with ⟨-, rfl, rfl⟩
      exact .inr ⟨hPos, hLess, rfl, rfl⟩

/- The bits of a finite double are canonical. -/
theorem isCanonical_of_unpack
    {b : BitVec 64}
    {s : Sign}
    {m : Nat}
    {e : ℤ}
    {hm : 0 < m}
    (h : UnpackedFloat.unpack Format.binary64 b =
      .finite s m e hm) :
    IsCanonical m e ∧ e ≤ 971 := by
  unfold IsCanonical
  rcases fields_of_unpack h with
    ⟨-, rfl, rfl⟩ | ⟨hPos, hLess, rfl, rfl⟩
  · have hLog : (b.toNat % 2 ^ 52).log2 < 52 := by
      rw [Nat.log2_lt hm.ne']
      exact Nat.mod_lt _ (by decide)
    omega
  · have hLog : (2 ^ 52 + b.toNat % 2 ^ 52).log2 = 52 := by
      rw [Nat.log2_eq_iff hm.ne']
      omega
    omega

end Double

end StackCalc

------------------------------------------------------------
-- Exact Doubles
------------------------------------------------------------

namespace StackCalc

namespace Double

open Float.Model Float.Model.UnpackedFloat

/-
  A double whose value is a positive fraction, with all the
  bits of its mantissa.
-/
def IsExactly
    (x : Float)
    (q : ℚ) : Prop :=
  ∃ m e, ∃ hm : 0 < m,
    x.toModel.unpack = .finite .positive m e hm ∧
      m.log2 = 52 ∧ m * (2 : ℚ) ^ e = q

/- Bits at the end lengthen a mantissa. -/
theorem log2_mul_two_pow
    {n : Nat}
    (hPos : 0 < n)
    (k : Nat) :
    (n * 2 ^ k).log2 = n.log2 + k := by
  have hLow : 2 ^ n.log2 ≤ n := Nat.log2_self_le hPos.ne'
  have hHigh : n < 2 ^ (n.log2 + 1) := Nat.lt_log2_self
  rw [Nat.log2_eq_iff (by positivity)]
  constructor
  · rw [pow_add]
    exact Nat.mul_le_mul_right _ hLow
  · rw [show n.log2 + k + 1 = n.log2 + 1 + k by ring,
      pow_add _ (n.log2 + 1)]
    exact Nat.mul_lt_mul_of_pos_right hHigh (by positivity)

/- Canonical mantissas are rounded to themselves. -/
theorem roundWithAccuracy_of_isCanonical
    {m : Nat}
    {e : ℤ}
    (hm : 0 < m)
    (h : IsCanonical m e)
    (s : Sign) :
    roundWithAccuracy Format.binary64 s m e .exact =
      .finite s m e hm := by
  have hUnits : (m * 2 ^ e : ℚ) / 2 ^ e = m := by
    field_simp
  have hPos : (0 : ℚ) < m * 2 ^ e := by
    positivity
  rw [← nearest_of_isCanonical hm h s]
  apply roundWithAccuracy_eq_nearest hPos
  · rw [hUnits, kept_natCast]
  · rw [lastPlace_of_isCanonical hm h]

/- Integers of up to fifty-three bits are doubles. -/
theorem isExactly_ofNat
    {n : Nat}
    (hPos : 0 < n)
    (h : n < 2 ^ 53) :
    IsExactly n.toUInt64.toFloat n := by
  have hLog : n.log2 ≤ 52 := by
    have hLt := (Nat.log2_lt hPos.ne').2 h
    omega
  have hWord : n.toUInt64.toNat = n := by
    rw [Nat.toUInt64, UInt64.toNat_ofNat']
    exact Nat.mod_eq_of_lt (h.trans (by decide))
  generalize hShift : 52 - n.log2 = k
  have hFull : (n * 2 ^ k).log2 = 52 := by
    rw [log2_mul_two_pow hPos]
    omega
  have hm : 0 < n * 2 ^ k := by
    positivity
  have hValue : ((n * 2 ^ k : Nat) : ℚ) * 2 ^ (-(k : ℤ)) = n := by
    push_cast
    rw [zpow_neg, zpow_natCast]
    field_simp
  have hCanonical : IsCanonical (n * 2 ^ k) (-k) := by
    unfold IsCanonical
    omega
  have hRounded :
      UnpackedFloat.ofUInt64 Format.binary64 n.toUInt64 =
        .finite .positive (n * 2 ^ k) (-k) hm := by
    have hTarget :
        Format.binary64.targetExponent (totalExponent n 0) =
          -k := by
      rw [targetExponent_eq, totalExponent]
      omega
    rw [← roundWithAccuracy_of_isCanonical hm hCanonical,
      UnpackedFloat.ofUInt64, UnpackedFloat.ofNat,
      UnpackedFloat.ofInt, UnpackedFloat.normalize, hWord,
      Int.compare_eq_gt.2 (by exact_mod_cast hPos)]
    simp only [UnpackedFloat.round, decreaseExponent,
      Int.toNat_natCast, hTarget, Nat.shiftLeft_eq]
    rw [show (0 - -(k : ℤ)).toNat = k by omega,
      show (0 : ℤ) - k = -k by omega]
  refine ⟨n * 2 ^ k, -k, hm, ?_, hFull, hValue⟩
  show UnpackedFloat.unpack Format.binary64
    (UnpackedFloat.pack Format.binary64
      (UnpackedFloat.ofUInt64 Format.binary64 n.toUInt64)) = _
  rw [hRounded, unpack_pack_of_isCanonical hm hCanonical
    (by omega)]

/- Powers of ten with few digits are doubles. -/
theorem isExactly_powerOfTen
    {k : Nat}
    (h : k < Float.exactlyRepresentablePowersOfTen.size) :
    IsExactly Float.exactlyRepresentablePowersOfTen[k]
      (10 ^ k) := by
  -- The bound of the index would keep it from evaluation.
  have hEntry :
      Float.exactlyRepresentablePowersOfTen[k] =
        Float.exactlyRepresentablePowersOfTen.getD k 0 := by
    rw [Array.getD, dif_pos h]
    rfl
  have hSize : Float.exactlyRepresentablePowersOfTen.size = 23 :=
    rfl
  rw [hEntry]
  rw [hSize] at h
  clear hEntry
  have hPos : 0 < 5 ^ k * 2 ^ (52 - (5 ^ k).log2) := by
    positivity
  have hUnpack :
      (Float.exactlyRepresentablePowersOfTen.getD k
          0).toModel.unpack =
        .finite .positive (5 ^ k * 2 ^ (52 - (5 ^ k).log2))
          (k - (52 - (5 ^ k).log2 : Nat)) hPos := by
    interval_cases k <;> rfl
  have hLog : (5 ^ k).log2 ≤ 52 := by
    interval_cases k <;> decide
  refine ⟨_, _, hPos, hUnpack, ?_, ?_⟩
  · rw [log2_mul_two_pow (by positivity)]
    omega
  · rw [zpow_sub₀ two_ne_zero, zpow_natCast, zpow_natCast]
    push_cast
    field_simp
    rw [← mul_pow]
    norm_num

/- The product of exact doubles is nearest to the product. -/
theorem mul_of_isExactly
    {x y : Float}
    {a b : ℚ}
    (hx : IsExactly x a)
    (hy : IsExactly y b) :
    x * y = rounded (a * b) := by
  rcases hx with ⟨m, e, hm, hUnpackX, hLogX, rfl⟩
  rcases hy with ⟨n, k, hn, hUnpackY, hLogY, rfl⟩
  have hFull : ∀ {i : Nat}, 0 < i → i.log2 = 52 →
      (2 : ℚ) ^ (52 : ℕ) ≤ i := by
    intro i hi hLog
    rw [← hLog]
    exact_mod_cast Nat.log2_self_le hi.ne'
  have hPlace :
      e + k ≤ lastPlace (m * 2 ^ e * (n * 2 ^ k)) := by
    apply le_lastPlace (by positivity)
    have hSplit :
        (2 : ℚ) ^ (e + k + 52) = 1 * 2 ^ e * (2 ^ (52 : ℕ) * 2 ^ k) := by
      rw [zpow_add₀ two_ne_zero, zpow_add₀ two_ne_zero]
      norm_cast
      ring
    have hOne : (1 : ℚ) ≤ m := by
      exact_mod_cast hm
    rw [hSplit]
    have hn' := hFull hn hLogY
    gcongr
  show Float.ofModel (.pack (UnpackedFloat.mul Format.binary64
    x.toModel.unpack y.toModel.unpack)) = _
  rw [hUnpackX, hUnpackY, mul_finite_eq_nearest hm hn hPlace]
  rfl

/- Their quotient is nearest to the quotient. -/
theorem div_of_isExactly
    {x y : Float}
    {a b : ℚ}
    (hx : IsExactly x a)
    (hy : IsExactly y b) :
    x / y = rounded (a / b) := by
  rcases hx with ⟨m, e, hm, hUnpackX, -, rfl⟩
  rcases hy with ⟨n, k, hn, hUnpackY, -, rfl⟩
  show Float.ofModel (.pack (UnpackedFloat.div Format.binary64
    x.toModel.unpack y.toModel.unpack)) = _
  rw [hUnpackX, hUnpackY, div_finite_eq_nearest hm hn]
  rfl

end Double

end StackCalc

------------------------------------------------------------
-- Decimals
------------------------------------------------------------

namespace StackCalc

namespace Double

open Float.Model Float.Model.UnpackedFloat

theorem model_pack_congr
    {u u' : UnpackedFloat}
    (h : UnpackedFloat.pack Format.binary64 u =
      UnpackedFloat.pack Format.binary64 u') :
    Float.Model.pack u = Float.Model.pack u' := by
  simp only [Float.Model.pack, h]

/- Huge decimals need not be computed to be infinite. -/
theorem le_of_huge
    {m : Nat}
    {e : ℤ}
    (hm : 0 < m)
    (he : 2048 < e) :
    (2 : ℚ) ^ (1024 : ℤ) ≤ m * 10 ^ e := by
  have hOne : (1 : ℚ) ≤ m := by
    exact_mod_cast hm
  calc (2 : ℚ) ^ (1024 : ℤ)
      ≤ 2 ^ e := zpow_le_zpow_right₀ one_le_two (by omega)
    _ ≤ 10 ^ e :=
        zpow_le_zpow_left₀ (by omega) (by norm_num)
          (by norm_num)
    _ ≤ m * 10 ^ e :=
        le_mul_of_one_le_left (by positivity) hOne

/- Tiny decimals need not be computed to vanish. -/
theorem lt_of_tiny
    {m : Nat}
    {e : ℤ}
    (he : e < -(2048 + (m.log2 : ℤ))) :
    (m * 10 ^ e : ℚ) < 2 ^ (-1075 : ℤ) := by
  have hHigh : (m : ℚ) < 2 ^ ((m.log2 : ℤ) + 1) := by
    exact_mod_cast (Nat.lt_log2_self : m < 2 ^ (m.log2 + 1))
  have hTen : (10 : ℚ) ^ e ≤ 2 ^ e := by
    rw [← neg_neg e, zpow_neg, zpow_neg 2]
    apply inv_anti₀ (by positivity)
    exact zpow_le_zpow_left₀ (by omega) (by norm_num)
      (by norm_num)
  calc (m : ℚ) * 10 ^ e
      ≤ m * 2 ^ e := by gcongr
    _ < 2 ^ ((m.log2 : ℤ) + 1) * 2 ^ e := by gcongr
    _ = 2 ^ ((m.log2 : ℤ) + 1 + e) :=
        (zpow_add₀ two_ne_zero _ _).symm
    _ ≤ 2 ^ (-1075 : ℤ) :=
        zpow_le_zpow_right₀ one_le_two (by omega)

/- A product with a power of ten, with places to spare. -/
theorem mul_pow_ten
    {m k : Nat}
    (hm : 0 < m <<< 53)
    (hk : 0 < 10 ^ k) :
    UnpackedFloat.mul Format.binary64
        (.finite .positive (m <<< 53) (-53) hm)
        (.finite .positive (10 ^ k) 0 hk) =
      nearest .positive (m * 10 ^ (k : ℤ)) := by
  have hValue :
      ((m <<< 53 : Nat) : ℚ) * 2 ^ (-53 : ℤ) *
          ((10 ^ k : Nat) * 2 ^ (0 : ℤ)) =
        m * 10 ^ (k : ℤ) := by
    rw [Nat.shiftLeft_eq, zpow_natCast]
    push_cast
    norm_num
    ring
  have hOne : 1 ≤ m * 10 ^ k := by
    rw [Nat.shiftLeft_eq] at hm
    exact Nat.mul_pos (Nat.pos_of_mul_pos_right hm) hk
  have hWhole : (1 : ℚ) ≤ m * 10 ^ (k : ℤ) := by
    rw [zpow_natCast]
    exact_mod_cast hOne
  have hPlace : -53 + 0 ≤ lastPlace (m * 10 ^ (k : ℤ)) := by
    apply le_lastPlace (by linarith)
    refine le_trans ?_ hWhole
    norm_num
  rw [← hValue] at hPlace ⊢
  exact mul_finite_eq_nearest hm hk hPlace

/- A quotient by a power of ten. -/
theorem div_pow_ten
    {m k : Nat}
    (hm : 0 < m)
    (hk : 0 < 10 ^ k) :
    UnpackedFloat.div Format.binary64
        (.finite .positive m 0 hm)
        (.finite .positive (10 ^ k) 0 hk) =
      nearest .positive (m * 10 ^ (-(k : ℤ))) := by
  have hValue :
      (m : ℚ) * 2 ^ (0 : ℤ) /
          ((10 ^ k : Nat) * 2 ^ (0 : ℤ)) =
        m * 10 ^ (-(k : ℤ)) := by
    rw [zpow_neg, zpow_natCast]
    push_cast
    norm_num
    rfl
  rw [← hValue]
  exact div_finite_eq_nearest hm hk

/- Long decimals are rounded to the nearest double. -/
theorem ofModel_ofScientific
    {m : Nat}
    (hm : 0 < m)
    (e : ℤ) :
    Float.ofModel (Float.Model.ofScientific m e) =
      rounded (m * 10 ^ e) := by
  have hPos : (0 : ℚ) < m * 10 ^ e := by
    positivity
  unfold rounded Float.Model.ofScientific
  congr 1
  apply model_pack_congr
  unfold UnpackedFloat.ofScientific
  rw [dif_neg hm.ne']
  by_cases hHuge : 2 ^ Format.binary64.exponentBits < e
  · rw [if_pos hHuge, pack_nearest_of_le (le_of_huge hm hHuge)]
    rfl
  · rw [if_neg hHuge]
    by_cases hTiny :
        e < -((2 ^ Format.binary64.exponentBits : ℤ) + m.log2)
    · rw [if_pos hTiny, nearest_of_lt hPos (lt_of_tiny hTiny)]
    · rw [if_neg hTiny]
      by_cases hSign : 0 ≤ e
      · lift e to ℕ using hSign
        rw [if_pos (by omega)]
        exact congrArg _ (mul_pow_ten _ _)
      · obtain ⟨k, hk⟩ : ∃ k : ℕ, e = -(k : ℤ) :=
          ⟨e.natAbs, by omega⟩
        rw [if_neg hSign]
        subst hk
        simp only [neg_neg, Int.toNat_natCast]
        rw [div_pow_ten hm]

end Double

namespace Decimal

namespace Scientific

open Double Float.Model

/- The number that a decimal denotes. -/
def value (d : Scientific) : ℚ :=
  d.mantissa * 10 ^ d.exponent

theorem value_eq_zero_iff
    {d : Scientific} :
    d.value = 0 ↔ d.mantissa = 0 := by
  have hPower : (10 : ℚ) ^ d.exponent ≠ 0 := by
    positivity
  rw [value, mul_eq_zero, or_iff_left hPower, Nat.cast_eq_zero]

/-
  A decimal other than zero is read as the nearest double,
  whether its digits are few or many.
-/
theorem toFloat_eq_rounded
    {d : Scientific}
    (h : 0 < d.mantissa) :
    d.toFloat = rounded d.value := by
  rcases d with ⟨m, e⟩
  unfold toFloat Float.ofScientific value
  simp only
  by_cases hShort : m < 2 ^ 53 ∧ e.natAbs ≤ 22
  · have hNat := isExactly_ofNat h hShort.1
    have hIndex :
        e.natAbs < Float.exactlyRepresentablePowersOfTen.size :=
      Nat.lt_succ_of_le hShort.2
    have hPower := isExactly_powerOfTen hIndex
    rw [dif_pos hShort]
    by_cases hSign : e < 0
    · have hExponent : e = -(e.natAbs : ℤ) := by
        omega
      have hTen : (10 : ℚ) ^ e = (10 ^ e.natAbs)⁻¹ := by
        conv => lhs; rw [hExponent]
        rw [zpow_neg, zpow_natCast]
      rw [if_pos (by simpa using hSign),
        div_of_isExactly hNat hPower, hTen, div_eq_mul_inv]
    · have hExponent : e = (e.natAbs : ℤ) := by
        omega
      have hTen : (10 : ℚ) ^ e = 10 ^ e.natAbs := by
        conv => lhs; rw [hExponent]
        rw [zpow_natCast]
      rw [if_neg (by simpa using hSign),
        mul_of_isExactly hNat hPower, hTen]
  · have hExponent :
        (if decide (e < 0) = true then Int.negOfNat e.natAbs
          else Int.ofNat e.natAbs) = e := by
      by_cases hSign : e < 0
      · rw [if_pos (by simpa using hSign), Int.negOfNat_eq,
          Int.ofNat_eq_natCast]
        omega
      · rw [if_neg (by simpa using hSign),
          Int.ofNat_eq_natCast]
        omega
    rw [dif_neg hShort, hExponent]
    exact ofModel_ofScientific h e

/- Zero is read as zero, however it is written. -/
theorem toFloat_of_zero
    {d : Scientific}
    (h : d.mantissa = 0) :
    d.toFloat =
      .ofModel (.pack (.zero .positive)) := by
  rcases d with ⟨m, e⟩
  simp only at h
  subst h
  unfold toFloat Float.ofScientific
  simp only
  by_cases hShort : 0 < 2 ^ 53 ∧ e.natAbs ≤ 22
  · have hIndex :
        e.natAbs < Float.exactlyRepresentablePowersOfTen.size :=
      Nat.lt_succ_of_le hShort.2
    rcases isExactly_powerOfTen hIndex with
      ⟨p, k, hp, hUnpack, -, -⟩
    have hNone :
        (Nat.toUInt64 0).toFloat.toModel.unpack =
          .zero .positive :=
      rfl
    rw [dif_pos hShort]
    split
    · show Float.ofModel (.pack (UnpackedFloat.div
        Format.binary64 (Nat.toUInt64 0).toFloat.toModel.unpack
        Float.exactlyRepresentablePowersOfTen[
          e.natAbs].toModel.unpack)) = _
      rw [hNone, hUnpack]
      rfl
    · show Float.ofModel (.pack (UnpackedFloat.mul
        Format.binary64 (Nat.toUInt64 0).toFloat.toModel.unpack
        Float.exactlyRepresentablePowersOfTen[
          e.natAbs].toModel.unpack)) = _
      rw [hNone, hUnpack]
      rfl
  · rw [dif_neg hShort]
    rfl

/- Two spellings of a decimal are read as one double. -/
theorem toFloat_congr
    {d d' : Scientific}
    (h : d.value = d'.value) :
    d.toFloat = d'.toFloat := by
  by_cases hZero : d.mantissa = 0
  · have hZero' : d'.mantissa = 0 := by
      rw [← value_eq_zero_iff, ← h, value_eq_zero_iff]
      exact hZero
    rw [toFloat_of_zero hZero, toFloat_of_zero hZero']
  · have hZero' : d'.mantissa ≠ 0 := by
      rw [Ne, ← value_eq_zero_iff, ← h, value_eq_zero_iff]
      exact hZero
    rw [toFloat_eq_rounded (Nat.pos_of_ne_zero hZero),
      toFloat_eq_rounded (Nat.pos_of_ne_zero hZero'), h]

end Scientific

end Decimal

end StackCalc
