import Mathlib
import StackCalc.Decimal.Shortest
import StackCalc.Proofs.DecimalRounding

/-
  The shortest decimal of a double reads back as it.

  A decimal that is found among the short ones was tried,
  and reads back. The exact value of the double, which
  stands in where none is found, does so as well: a double
  is the one nearest to its own value. A double is given
  back by its magnitude and its sign.

  Main declarations:
    * `Double.IsOfFormat`
    * `Double.signedFloat_abs`
    * `Ratio.value`
    * `Ratio.value_ofFloat`
    * `Decimal.readsBack_shortest`
    * `Decimal.toFloat_shortest`
-/

------------------------------------------------------------
-- Signs
------------------------------------------------------------

namespace StackCalc

namespace Double

open Float.Model Float.Model.UnpackedFloat

/- The numbers of a sign that the bits of doubles stand for. -/
inductive IsOfFormat (s : Sign) : UnpackedFloat → Prop
  | infinity :
      IsOfFormat s (.infinity s)
  | zero :
      IsOfFormat s (.zero s)
  | finite
      {m : Nat}
      {e : ℤ}
      (hm : 0 < m)
      (hCanonical : IsCanonical m e)
      (hHigh : e ≤ 971) :
      IsOfFormat s (.finite s m e hm)

/- Such numbers are unpacked as they were packed. -/
theorem IsOfFormat.unpack_pack
    {s : Sign}
    {u : UnpackedFloat}
    (h : IsOfFormat s u) :
    (Float.Model.pack u).unpack = u := by
  cases h with
  | infinity =>
      cases s with
      | _ =>
          rfl
  | zero =>
      exact unpack_packedZero
  | finite hm hCanonical hHigh =>
      exact unpack_pack_of_isCanonical hm hCanonical hHigh

theorem IsOfFormat.abs
    {s : Sign}
    {u : UnpackedFloat}
    (h : IsOfFormat s u) :
    IsOfFormat .positive u.abs := by
  cases h with
  | infinity =>
      exact .infinity
  | zero =>
      exact .zero
  | finite hm hCanonical hHigh =>
      exact .finite hm hCanonical hHigh

/- The sign of a double. -/
def signOf (x : Float) : Sign :=
  if isNegativeFloat x then .negative else .positive

theorem ofBitVec_unpackSign
    (x : Float) :
    Sign.ofBitVec
        (@unpackSign Format.binary64 x.toBits.toBitVec) =
      signOf x := by
  have hTop :
      (@unpackSign Format.binary64 x.toBits.toBitVec).toNat =
        x.toBits.toNat / 2 ^ 63 := by
    rw [unpackSign_def, BitVec.extractLsb'_toNat,
      Nat.shiftRight_eq_div_pow]
    have hLess := x.toBits.toNat_lt
    show x.toBits.toNat / 2 ^ 63 % 2 ^ 1 = _
    omega
  have hValue : isNegativeFloat x = true ↔
      2 ^ 63 ≤ x.toBits.toNat := by
    simp [isNegativeFloat]
  unfold signOf Sign.ofBitVec
  by_cases hNegative : 2 ^ 63 ≤ x.toBits.toNat
  · rw [if_pos (hValue.2 hNegative), if_neg]
    intro hZero
    rw [hZero] at hTop
    simp only [BitVec.toNat_ofNat] at hTop
    omega
  · rw [if_neg (mt hValue.1 hNegative), if_pos]
    apply BitVec.eq_of_toNat_eq
    rw [hTop]
    simp only [BitVec.toNat_ofNat]
    omega

/- A number, if it is one, has a sign. -/
def HasSign (s : Sign) : UnpackedFloat → Prop
  | .notANumber => True
  | .infinity t => t = s
  | .zero t => t = s
  | .finite t _ _ _ => t = s

theorem hasSign_unpack
    (b : BitVec 64) :
    HasSign (Sign.ofBitVec (@unpackSign Format.binary64 b))
      (UnpackedFloat.unpack Format.binary64 b) := by
  unfold UnpackedFloat.unpack
  dsimp only
  split
  · split
    · exact rfl
    · trivial
  · split
    · split
      · exact rfl
      · exact rfl
    · exact rfl

/- Every double but one is a number of its sign. -/
theorem isOfFormat_unpack
    {x : Float}
    (h : x.isNaN = false) :
    IsOfFormat (signOf x) x.toModel.unpack := by
  have hSign : HasSign (signOf x) x.toModel.unpack := by
    rw [← ofBitVec_unpackSign]
    exact hasSign_unpack x.toBits.toBitVec
  cases hNumber : x.toModel.unpack with
  | notANumber =>
      have hNaN : x.toModel.unpack.isNaN = false := h
      rw [hNumber] at hNaN
      simp [UnpackedFloat.isNaN] at hNaN
  | infinity s =>
      rw [hNumber] at hSign
      rw [← show s = signOf x from hSign]
      exact .infinity
  | zero s =>
      rw [hNumber] at hSign
      rw [← show s = signOf x from hSign]
      exact .zero
  | finite s m e hm =>
      rcases isCanonical_of_unpack hNumber with
        ⟨hCanonical, hHigh⟩
      rw [hNumber] at hSign
      rw [← show s = signOf x from hSign]
      exact .finite hm hCanonical hHigh

theorem ofModel_pack_unpack
    (x : Float) :
    Float.ofModel (.pack x.toModel.unpack) = x := by
  apply Float.toBits_inj.1
  exact UInt64.toBitVec_inj.1
    (pack_unpack_of_valid x.toModel.valid)

/- A double is its magnitude with its sign. -/
theorem signedFloat_abs
    {x : Float}
    (h : x.isNaN = false) :
    signedFloat (isNegativeFloat x) x.abs = x := by
  have hFormat := isOfFormat_unpack h
  have hAbs :
      x.abs.toModel.unpack = x.toModel.unpack.abs :=
    hFormat.abs.unpack_pack
  unfold signOf at hFormat
  unfold signedFloat
  by_cases hNegative : isNegativeFloat x = true
  · rw [if_pos hNegative] at hFormat ⊢
    have hBack : x.toModel.unpack.abs.neg = x.toModel.unpack := by
      generalize x.toModel.unpack = u at hFormat
      cases hFormat with
      | _ =>
          rfl
    show Float.ofModel (.pack x.abs.toModel.unpack.neg) = x
    rw [hAbs, hBack, ofModel_pack_unpack]
  · rw [if_neg hNegative] at hFormat ⊢
    have hBack : x.toModel.unpack.abs = x.toModel.unpack := by
      generalize x.toModel.unpack = u at hFormat
      cases hFormat with
      | _ =>
          rfl
    show Float.ofModel (.pack x.toModel.unpack.abs) = x
    rw [hBack, ofModel_pack_unpack]

end Double

end StackCalc

------------------------------------------------------------
-- Exact Values
------------------------------------------------------------

namespace StackCalc

open Float.Model Float.Model.UnpackedFloat

namespace Ratio

/- The number that a fraction denotes. -/
def value (r : Ratio) : ℚ :=
  r.num / r.den

theorem value_over_pow
    (n k : Nat) :
    value ⟨n, Nat.pow 2 k⟩ = n * 2 ^ (-(k : ℤ)) := by
  rw [value, zpow_neg, zpow_natCast, ← div_eq_mul_inv,
    Nat.pow_eq]
  push_cast
  rfl

/- The fraction of a finite double has its value. -/
theorem value_ofFloat
    {x : Float}
    {s : Sign}
    {m : Nat}
    {e : ℤ}
    {hm : 0 < m}
    (h : x.toModel.unpack = .finite s m e hm) :
    (ofFloat x).value = m * 2 ^ e ∧
      ∃ k, (ofFloat x).den = Nat.pow 2 k := by
  have hFields :=
    Double.fields_of_unpack (b := x.toBits.toBitVec) h
  unfold ofFloat
  dsimp only
  generalize hField :
    x.toBits.toNat / Nat.pow 2 52 % Nat.pow 2 11 = field
  generalize hFraction : x.toBits.toNat % Nat.pow 2 52 = fraction
  rw [show x.toBits.toBitVec.toNat / 2 ^ 52 % 2 ^ 11 = field
      from hField,
    show x.toBits.toBitVec.toNat % 2 ^ 52 = fraction
      from hFraction] at hFields
  have hLead : Nat.pow 2 52 = 2 ^ 52 := rfl
  have hPower : ∀ k, ∃ j, Nat.pow 2 k = Nat.pow 2 j :=
    fun k => ⟨k, rfl⟩
  rw [hLead]
  rcases hFields with ⟨hZero, rfl, rfl⟩ | ⟨hPos, -, rfl, rfl⟩
  · have hLast : (-1074 : ℤ) = -((1074 : ℕ) : ℤ) := rfl
    rw [if_pos hZero, hLast]
    -- Abstract, so that the power is not evaluated.
    generalize (1074 : ℕ) = last
    exact ⟨value_over_pow m last, hPower last⟩
  · rw [if_neg hPos.ne']
    split
    case isTrue hParts =>
      have hExponent :
          (field : ℤ) - 1075 = -((1075 - field : ℕ) : ℤ) := by
        omega
      rw [hExponent]
      exact ⟨value_over_pow _ _, hPower _⟩
    case isFalse hWhole =>
      have hExponent :
          (field : ℤ) - 1075 = ((field - 1075 : ℕ) : ℤ) := by
        omega
      refine ⟨?_, hPower 0⟩
      rw [value, hExponent, zpow_natCast, Nat.cast_mul,
        Nat.cast_one, div_one, Nat.pow_eq, Nat.cast_pow,
        Nat.cast_ofNat]

end Ratio

end StackCalc

------------------------------------------------------------
-- Shortest Decimals
------------------------------------------------------------

namespace StackCalc

namespace Decimal

open Float.Model Float.Model.UnpackedFloat

/- A fraction over a power of two is a decimal. -/
theorem value_exactly
    {r : Ratio}
    {k : Nat}
    (h : r.den = Nat.pow 2 k) :
    (exactly r).value = r.value := by
  have hLog : r.den.log2 = k := by
    rw [h, Nat.pow_eq, Nat.log2_two_pow]
  have hTen : (10 : ℚ) ^ k = 2 ^ k * 5 ^ k := by
    rw [← mul_pow]
    norm_num
  rw [exactly, Scientific.value, Ratio.value, hLog, h,
    zpow_neg, zpow_natCast, hTen, Nat.pow_eq, Nat.pow_eq]
  push_cast
  field_simp

variable {x : Float} {s : Sign} {m : Nat} {e : ℤ} {hm : 0 < m}

/- The exact decimal of a double reads back. -/
theorem readsBack_exactly
    (h : x.toModel.unpack = .finite s m e hm) :
    readsBack x (exactly (Ratio.ofFloat x)) = true := by
  rcases Ratio.value_ofFloat h with ⟨hRatio, k, hDen⟩
  rcases Double.isCanonical_of_unpack h with ⟨hCanonical, -⟩
  have hValue :
      (exactly (Ratio.ofFloat x)).value = m * 2 ^ e := by
    rw [value_exactly hDen, hRatio]
  have hPos : 0 < (exactly (Ratio.ofFloat x)).mantissa := by
    rw [Nat.pos_iff_ne_zero, Ne, ← Scientific.value_eq_zero_iff,
      hValue]
    positivity
  have hFloat :
      (exactly (Ratio.ofFloat x)).toFloat = x.abs := by
    show _ = Float.ofModel (.pack x.toModel.unpack.abs)
    rw [Scientific.toFloat_eq_rounded hPos, hValue,
      Double.rounded, Double.nearest_of_isCanonical hm hCanonical,
      h]
    rfl
  rw [readsBack, hFloat]
  exact decide_eq_true rfl

/- So does the shortest one, whichever it is. -/
theorem readsBack_shortest
    (h : x.toModel.unpack = .finite s m e hm) :
    readsBack x (shortest x) = true := by
  unfold shortest
  dsimp only
  cases hFound :
      (List.range 17).findSome? fun i =>
        (neighbours (Ratio.ofFloat x) (i + 1)).find?
          (readsBack x) with
  | none =>
      exact readsBack_exactly h
  | some d =>
      exact readsBack_of_findSome? hFound

theorem toFloat_shortest
    (h : x.toModel.unpack = .finite s m e hm) :
    (shortest x).toFloat = x.abs :=
  Float.toBits_inj.1
    (of_decide_eq_true (readsBack_shortest h))

/- The shortest decimal of a double is not zero. -/
theorem mantissa_shortest_pos
    (h : x.toModel.unpack = .finite s m e hm) :
    0 < (shortest x).mantissa := by
  rcases Double.isCanonical_of_unpack h with
    ⟨hCanonical, hHigh⟩
  rw [Nat.pos_iff_ne_zero]
  intro hZero
  have hSame := toFloat_shortest h
  rw [Scientific.toFloat_of_zero hZero] at hSame
  have hUnpacked :
      (Float.Model.pack (.zero .positive)).unpack =
        (Float.Model.pack x.toModel.unpack.abs).unpack :=
    congrArg (fun y : Float => y.toModel.unpack) hSame
  have hAbs :
      x.toModel.unpack.abs = .finite .positive m e hm := by
    rw [h]
    rfl
  rw [hAbs,
    (Double.IsOfFormat.finite hm hCanonical hHigh).unpack_pack,
    (Double.IsOfFormat.zero).unpack_pack] at hUnpacked
  simp at hUnpacked

end Decimal

end StackCalc
