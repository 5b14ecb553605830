import Mathlib
import StackCalc.Proofs.DoubleRange

/-
  The double nearest to a fraction.

  Of a fraction in units of the last place, rounding keeps
  the whole part and two bits of the rest. Shifting down
  keeps just these of the shifted fraction, so what comes
  of rounding depends on the fraction alone, provided that
  its last place was still there to begin with. Products
  and quotients start from enough places.

  Main declarations:
    * `Double.kept`
    * `Double.lastPlace`
    * `Double.nearest`
    * `Double.roundWithAccuracy_eq_nearest`
    * `Double.mul_finite_eq_nearest`
    * `Double.div_finite_eq_nearest`
    * `Double.nearest_of_isCanonical`
-/

------------------------------------------------------------
-- What Rounding Keeps
------------------------------------------------------------

namespace StackCalc

namespace Double

open Float.Model Float.Model.UnpackedFloat

/-
  What an extended mantissa keeps of a fraction: its whole
  part, whether the rest reaches one half, and whether the
  rest has more to it than the one half.
-/
def kept (q : ℚ) : ExtendedMantissa where
  mantissa := ⌊q⌋₊
  roundBit := ⌊2 * q⌋₊ % 2 != 0
  stickyBit := decide (2 * q ≠ ⌊2 * q⌋₊)

/- A fraction is whole if twice of it is whole and even. -/
theorem ne_floor_iff
    (q : ℚ) :
    q ≠ ⌊q⌋₊ ↔
      ⌊2 * q⌋₊ % 2 ≠ 0 ∨ 2 * q ≠ ⌊2 * q⌋₊ := by
  constructor
  · intro h
    by_contra hNone
    rcases not_or.1 hNone with ⟨hEven, hWhole⟩
    rcases Nat.dvd_of_mod_eq_zero (not_not.1 hEven) with
      ⟨k, hk⟩
    have hHalf : q = k := by
      have hTwice := not_not.1 hWhole
      rw [hk] at hTwice
      push_cast at hTwice
      linarith
    rw [hHalf, Nat.floor_natCast] at h
    exact h rfl
  · intro h hWhole
    have hTwice : 2 * q = (2 * ⌊q⌋₊ : Nat) := by
      push_cast
      rw [← hWhole]
    rw [hTwice, Nat.floor_natCast] at h
    rcases h with hOdd | hPart
    · omega
    · exact hPart rfl

/- Shifting down by one keeps what there is of one half. -/
theorem shiftRightOne_kept
    (q : ℚ) :
    (kept q).shiftRightOne = kept (q / 2) := by
  have hTwice : 2 * (q / 2) = q := by
    ring
  have hFloor : ⌊q / 2⌋₊ = ⌊q⌋₊ / 2 :=
    Nat.floor_div_natCast q 2
  simp only [kept, ExtendedMantissa.shiftRightOne, hTwice,
    hFloor, ExtendedMantissa.mk.injEq, true_and]
  rw [Bool.eq_iff_iff]
  simpa using (ne_floor_iff q).symm

theorem shiftRight_kept
    (q : ℚ)
    (n : Nat) :
    kept q >>> n = kept (q / 2 ^ n) := by
  induction n with
  | zero =>
      rw [pow_zero, div_one]
      rfl
  | succ n ih =>
      show (kept q >>> n).shiftRightOne = kept (q / 2 ^ (n + 1))
      rw [ih, shiftRightOne_kept, div_div, pow_succ]

/- Of a whole number everything is kept. -/
theorem kept_natCast
    (m : Nat) :
    kept m =
      ExtendedMantissa.ofMantissaAndAccuracy m .exact := by
  have hTwice : (2 : ℚ) * m = (2 * m : Nat) := by
    push_cast
    rfl
  simp only [kept, ExtendedMantissa.ofMantissaAndAccuracy,
    hTwice, Nat.floor_natCast, ExtendedMantissa.mk.injEq,
    true_and]
  simp

/- A quotient is whole if nothing remains. -/
theorem div_eq_floor_iff
    (a : Nat)
    {b : Nat}
    (hb : 0 < b) :
    (a : ℚ) / b = (a / b : Nat) ↔ a % b = 0 := by
  have hPos : (b : ℚ) ≠ 0 := by
    positivity
  have hSplit := Nat.div_add_mod a b
  rw [div_eq_iff hPos, ← Nat.cast_mul, Nat.cast_inj,
    Nat.mul_comm]
  omega

/- Of a quotient the remainder tells the rest. -/
theorem kept_div
    (a : Nat)
    {b : Nat}
    (hb : 0 < b) :
    kept ((a : ℚ) / b) =
      ExtendedMantissa.ofMantissaAndAccuracy (a / b)
        (accuracyOfFraction (a % b) b) := by
  have hTwice :
      (2 : ℚ) * ((a : ℚ) / b) = (2 * a : Nat) / (b : ℚ) := by
    push_cast
    ring
  have hSplit : 2 * a = b * (2 * (a / b)) + 2 * (a % b) := by
    conv => lhs; rw [← Nat.div_add_mod a b]
    ring
  have hDiv : 2 * a / b = 2 * (a / b) + 2 * (a % b) / b := by
    conv => lhs; rw [hSplit]
    rw [Nat.mul_add_div hb]
  have hMod : 2 * a % b = 2 * (a % b) % b := by
    conv => lhs; rw [hSplit]
    rw [Nat.mul_add_mod]
  have hRest : a % b < b := Nat.mod_lt a hb
  simp only [kept, hTwice, Nat.floor_div_eq_div, ne_eq,
    div_eq_floor_iff _ hb]
  simp only [hDiv, hMod]
  generalize a % b = r at hRest ⊢
  unfold accuracyOfFraction
  by_cases hZero : r = 0
  · simp [hZero, ExtendedMantissa.ofMantissaAndAccuracy]
  · rw [if_neg hZero]
    rcases Nat.lt_trichotomy (2 * r) b with hLt | hEq | hGt
    · rw [Nat.compare_eq_lt.2 hLt, Nat.div_eq_of_lt hLt,
        Nat.mod_eq_of_lt hLt]
      simp [hZero, ExtendedMantissa.ofMantissaAndAccuracy]
    · rw [Nat.compare_eq_eq.2 hEq, hEq, Nat.div_self hb,
        Nat.mod_self]
      simp [ExtendedMantissa.ofMantissaAndAccuracy]
    · have hOne : 2 * r / b = 1 :=
        Nat.div_eq_of_lt_le (by omega) (by omega)
      have hMore : 2 * r % b ≠ 0 := by
        rw [Nat.mod_eq_sub_mod hGt.le,
          Nat.mod_eq_of_lt (by omega)]
        omega
      rw [Nat.compare_eq_gt.2 hGt, hOne]
      simp [hMore, ExtendedMantissa.ofMantissaAndAccuracy]

end Double

end StackCalc

------------------------------------------------------------
-- Rounding
------------------------------------------------------------

namespace StackCalc

namespace Double

open Float.Model Float.Model.UnpackedFloat

/- The place of the last bit that is kept of a fraction. -/
def lastPlace (q : ℚ) : ℤ :=
  max (Int.log 2 q - 52) (-1074)

/-
  A rounded mantissa with its exponent. It may have become
  longer by a bit, which goes to the exponent.
-/
def settled
    (s : Sign)
    (m : Nat)
    (e : ℤ) : UnpackedFloat :=
  let shifted :=
    shiftToTargetExponent Format.binary64 m e .exact
  if h : shifted.1.mantissa = 0 then .zero s
  else
    .finite s shifted.1.mantissa shifted.2
      (Nat.pos_of_ne_zero h)

/- The double nearest to a positive fraction. -/
def nearest
    (s : Sign)
    (q : ℚ) : UnpackedFloat :=
  settled s (kept (q / 2 ^ lastPlace q)).roundedMantissa
    (lastPlace q)

/- A fraction is at least a power of two by its log. -/
theorem le_log
    {q : ℚ}
    {k : ℤ}
    (hq : 0 < q)
    (h : 2 ^ k ≤ q) :
    k ≤ Int.log 2 q :=
  (Int.zpow_le_iff_le_log (b := 2) one_lt_two hq).1
    (by exact_mod_cast h)

theorem log_lt
    {q : ℚ}
    {k : ℤ}
    (hq : 0 < q)
    (h : q < 2 ^ k) :
    Int.log 2 q < k :=
  (Int.lt_zpow_iff_log_lt (b := 2) one_lt_two hq).1
    (by exact_mod_cast h)

/- The leading bit of a fraction between powers of two. -/
theorem log_eq_of_between
    {q : ℚ}
    {k : ℤ}
    (hq : 0 < q)
    (hLow : 2 ^ k ≤ q)
    (hHigh : q < 2 ^ (k + 1)) :
    Int.log 2 q = k := by
  have hLe := le_log hq hLow
  have hLt := log_lt hq hHigh
  omega

/- The leading bit of a fraction from that of its whole. -/
theorem log_eq_of_floor
    {q : ℚ}
    {e : ℤ}
    (hq : 0 < q)
    (hFloor : ⌊q / 2 ^ e⌋₊ ≠ 0) :
    Int.log 2 q = (⌊q / 2 ^ e⌋₊.log2 : ℤ) + e := by
  have hUnit : (0 : ℚ) < 2 ^ e := by
    positivity
  have hPart : (0 : ℚ) ≤ q / 2 ^ e := by
    positivity
  generalize hm : ⌊q / 2 ^ e⌋₊ = m at hFloor ⊢
  rw [Nat.floor_eq_iff hPart, le_div_iff₀ hUnit,
    div_lt_iff₀ hUnit] at hm
  have hLow : (2 : ℚ) ^ m.log2 ≤ m := by
    exact_mod_cast Nat.log2_self_le hFloor
  have hHigh : (m : ℚ) + 1 ≤ 2 ^ (m.log2 + 1) := by
    exact_mod_cast (Nat.lt_log2_self : m < 2 ^ (m.log2 + 1))
  apply log_eq_of_between hq
  · rw [zpow_add₀ two_ne_zero, zpow_natCast]
    exact (mul_le_mul_of_nonneg_right hLow hUnit.le).trans hm.1
  · have hSplit :
        (m.log2 : ℤ) + e + 1 = ((m.log2 + 1 : ℕ) : ℤ) + e := by
      push_cast
      ring
    rw [hSplit, zpow_add₀ two_ne_zero, zpow_natCast]
    exact hm.2.trans_le
      (mul_le_mul_of_nonneg_right hHigh hUnit.le)

theorem log_lt_of_floor
    {q : ℚ}
    {e : ℤ}
    (hq : 0 < q)
    (hFloor : ⌊q / 2 ^ e⌋₊ = 0) :
    Int.log 2 q < e := by
  have hUnit : (0 : ℚ) < 2 ^ e := by
    positivity
  rw [Nat.floor_eq_zero, div_lt_one hUnit] at hFloor
  exact log_lt hq hFloor

/-
  A mantissa that still has the last place of a fraction
  is shifted to that place. If it is zero, the place is the
  last one that there is.
-/
theorem targetExponent_of_le_lastPlace
    {q : ℚ}
    {e : ℤ}
    (hq : 0 < q)
    (he : e ≤ lastPlace q) :
    Format.binary64.targetExponent
        (totalExponent ⌊q / 2 ^ e⌋₊ e) = lastPlace q := by
  rw [targetExponent_eq, totalExponent]
  unfold lastPlace at he ⊢
  by_cases hFloor : ⌊q / 2 ^ e⌋₊ = 0
  · have hLog := log_lt_of_floor hq hFloor
    rw [hFloor, Nat.log2_zero]
    omega
  · rw [log_eq_of_floor hq hFloor]
    omega

/- Rounding depends on the fraction alone. -/
theorem roundWithAccuracy_eq_nearest
    {q : ℚ}
    {m : Nat}
    {e : ℤ}
    {accuracy : Accuracy}
    (hq : 0 < q)
    (hKept :
      ExtendedMantissa.ofMantissaAndAccuracy m accuracy =
        kept (q / 2 ^ e))
    (he : e ≤ lastPlace q)
    (s : Sign) :
    roundWithAccuracy Format.binary64 s m e accuracy =
      nearest s q := by
  have hMantissa : m = ⌊q / 2 ^ e⌋₊ := by
    have hSame := congrArg ExtendedMantissa.mantissa hKept
    cases accuracy with
    | exact =>
        exact hSame
    | inexact o =>
        cases o with
        | _ =>
            exact hSame
  have hTarget :
      Format.binary64.targetExponent (totalExponent m e) =
        lastPlace q := by
    rw [hMantissa]
    exact targetExponent_of_le_lastPlace hq he
  generalize hShift : (lastPlace q - e).toNat = n
  have hPlace : e + (n : ℤ) = lastPlace q := by
    omega
  have hFirst :
      shiftToTargetExponent Format.binary64 m e accuracy =
        (kept (q / 2 ^ lastPlace q), lastPlace q) := by
    simp only [shiftToTargetExponent, shiftToExponent, hTarget,
      hShift, hKept, hPlace, shiftRight_kept, Prod.mk.injEq,
      and_true]
    rw [div_div, ← zpow_natCast, ← zpow_add₀ two_ne_zero,
      hPlace]
  unfold roundWithAccuracy
  rw [hFirst]
  rfl

end Double

end StackCalc

------------------------------------------------------------
-- Products And Quotients
------------------------------------------------------------

namespace StackCalc

namespace Double

open Float.Model Float.Model.UnpackedFloat

/- A fraction keeps fifty-two bits below its leading bit. -/
theorem le_lastPlace
    {q : ℚ}
    {k : ℤ}
    (hq : 0 < q)
    (h : 2 ^ (k + 52) ≤ q) :
    k ≤ lastPlace q := by
  have hLog := le_log hq h
  unfold lastPlace
  omega

/- A product that starts from enough places is nearest. -/
theorem mul_finite_eq_nearest
    {s t : Sign}
    {m n : Nat}
    {e k : ℤ}
    (hm : 0 < m)
    (hn : 0 < n)
    (hPlace :
      e + k ≤ lastPlace (m * 2 ^ e * (n * 2 ^ k))) :
    UnpackedFloat.mul Format.binary64 (.finite s m e hm)
        (.finite t n k hn) =
      nearest (s * t) (m * 2 ^ e * (n * 2 ^ k)) := by
  have hUnits :
      (m * 2 ^ e * (n * 2 ^ k) : ℚ) / 2 ^ (e + k) =
        (m * n : Nat) := by
    rw [zpow_add₀ two_ne_zero]
    push_cast
    field_simp
  have hPos : (0 : ℚ) < m * 2 ^ e * (n * 2 ^ k) := by
    positivity
  apply roundWithAccuracy_eq_nearest hPos _ hPlace
  rw [hUnits, kept_natCast]

theorem zpow_le_quotient
    {m n : Nat}
    {e k : ℤ}
    (hm : 0 < m)
    (hn : 0 < n) :
    (2 : ℚ) ^ ((m.log2 : ℤ) + e - (n.log2 + 1 + k)) ≤
      m * 2 ^ e / (n * 2 ^ k) := by
  have hNum : (2 : ℚ) ^ m.log2 ≤ m := by
    exact_mod_cast Nat.log2_self_le hm.ne'
  have hDen : (n : ℚ) ≤ 2 ^ (n.log2 + 1) := by
    exact_mod_cast (Nat.lt_log2_self : n < 2 ^ _).le
  have hDenCast :
      (2 : ℚ) ^ ((n.log2 : ℤ) + 1) = 2 ^ (n.log2 + 1) := by
    exact_mod_cast zpow_natCast (2 : ℚ) (n.log2 + 1)
  rw [zpow_sub₀ two_ne_zero, zpow_add₀ two_ne_zero,
    zpow_add₀ two_ne_zero, zpow_natCast, hDenCast]
  gcongr

/- A quotient is always taken to enough places. -/
theorem div_finite_eq_nearest
    {s t : Sign}
    {m n : Nat}
    {e k : ℤ}
    (hm : 0 < m)
    (hn : 0 < n) :
    UnpackedFloat.div Format.binary64 (.finite s m e hm)
        (.finite t n k hn) =
      nearest (s / t) (m * 2 ^ e / (n * 2 ^ k)) := by
  have hPos : (0 : ℚ) < m * 2 ^ e / (n * 2 ^ k) := by
    positivity
  have hLog := le_log hPos (zpow_le_quotient hm hn)
  simp only [UnpackedFloat.div, divCore]
  generalize hTarget :
    min (e - k)
      (Format.binary64.targetExponent
        (totalExponent m e - totalExponent n k)) = place
  rw [targetExponent_eq, totalExponent, totalExponent]
    at hTarget
  generalize hShift : (e - k - place).toNat = shift
  have hPlace : e - k = place + shift := by
    omega
  have hUnits :
      (m * 2 ^ e / (n * 2 ^ k) : ℚ) / 2 ^ place =
        (m <<< shift : Nat) / (n : ℚ) := by
    have hPow : (2 : ℚ) ^ e = 2 ^ place * 2 ^ shift * 2 ^ k := by
      rw [← zpow_natCast, ← zpow_add₀ two_ne_zero, ← hPlace,
        ← zpow_add₀ two_ne_zero]
      congr 1
      ring
    rw [Nat.shiftLeft_eq, hPow]
    push_cast
    field_simp
  apply roundWithAccuracy_eq_nearest hPos
  · rw [hUnits, kept_div _ hn]
  · unfold lastPlace
    omega

end Double

end StackCalc

------------------------------------------------------------
-- Doubles Themselves
------------------------------------------------------------

namespace StackCalc

namespace Double

open Float.Model Float.Model.UnpackedFloat

/- The exponent is that of the last place kept. -/
def IsCanonical
    (m : Nat)
    (e : ℤ) : Prop :=
  e = max ((m.log2 : ℤ) + e - 52) (-1074)

theorem lastPlace_of_isCanonical
    {m : Nat}
    {e : ℤ}
    (hm : 0 < m)
    (h : IsCanonical m e) :
    lastPlace (m * 2 ^ e) = e := by
  have hUnits : (m * 2 ^ e : ℚ) / 2 ^ e = m := by
    field_simp
  have hLog :=
    log_eq_of_floor (q := m * 2 ^ e) (e := e) (by positivity)
      (by rw [hUnits, Nat.floor_natCast]; omega)
  rw [hUnits, Nat.floor_natCast] at hLog
  unfold IsCanonical at h
  rw [lastPlace, hLog]
  exact h.symm

/- Whole mantissas are rounded to themselves. -/
theorem roundedMantissa_kept_natCast
    (m : Nat) :
    (kept m).roundedMantissa = m := by
  rw [kept_natCast]
  rfl

/- What a mantissa settles to. -/
theorem shiftToTargetExponent_exact
    (m : Nat)
    (e : ℤ) :
    shiftToTargetExponent Format.binary64 m e .exact =
      (kept (m / 2 ^
          (max ((m.log2 : ℤ) + e - 52) (-1074) - e).toNat),
        e + (max ((m.log2 : ℤ) + e - 52) (-1074) - e).toNat) := by
  have hTarget :
      Format.binary64.targetExponent (totalExponent m e) =
        max ((m.log2 : ℤ) + e - 52) (-1074) := by
    rw [targetExponent_eq, totalExponent]
    omega
  rw [shiftToTargetExponent, shiftToExponent, hTarget,
    ← kept_natCast, shiftRight_kept]

theorem settled_of_isCanonical
    {m : Nat}
    {e : ℤ}
    (hm : 0 < m)
    (h : IsCanonical m e)
    (s : Sign) :
    settled s m e = .finite s m e hm := by
  have hNone :
      (max ((m.log2 : ℤ) + e - 52) (-1074) - e).toNat = 0 := by
    unfold IsCanonical at h
    omega
  have hShifted :
      shiftToTargetExponent Format.binary64 m e .exact =
        (kept m, e) := by
    rw [shiftToTargetExponent_exact, hNone, pow_zero, div_one]
    simp
  have hMantissa : (kept m).mantissa = m :=
    Nat.floor_natCast m
  unfold settled
  simp only [hShifted, hMantissa]
  rw [dif_neg hm.ne']

/- A double is the one nearest to its value. -/
theorem nearest_of_isCanonical
    {m : Nat}
    {e : ℤ}
    (hm : 0 < m)
    (h : IsCanonical m e)
    (s : Sign) :
    nearest s (m * 2 ^ e) = .finite s m e hm := by
  have hUnits : (m * 2 ^ e : ℚ) / 2 ^ e = m := by
    field_simp
  rw [nearest, lastPlace_of_isCanonical hm h, hUnits,
    roundedMantissa_kept_natCast, settled_of_isCanonical hm h]

end Double

end StackCalc

------------------------------------------------------------
-- Out Of Range
------------------------------------------------------------

namespace StackCalc

namespace Double

open Float.Model Float.Model.UnpackedFloat

/- Rounding never goes below the whole part. -/
theorem le_roundedMantissa
    (em : ExtendedMantissa) :
    em.mantissa ≤ em.roundedMantissa := by
  rcases em with ⟨m, r, s⟩
  cases r with
  | false =>
      cases s with
      | _ =>
          exact Nat.le_refl m
  | true =>
      cases s with
      | false =>
          show m ≤ m + m % 2
          omega
      | true =>
          exact Nat.le_succ m

/- Less than a half is rounded to nothing. -/
theorem roundedMantissa_kept_of_lt
    {q : ℚ}
    (h : 2 * q < 1) :
    (kept q).roundedMantissa = 0 := by
  have hTwice : ⌊2 * q⌋₊ = 0 := Nat.floor_eq_zero.2 h
  have hWhole : ⌊q⌋₊ = 0 := by
    rw [Nat.floor_eq_zero]
    linarith
  simp only [kept, hTwice, hWhole,
    ExtendedMantissa.roundedMantissa]
  cases decide (2 * q ≠ (0 : Nat)) with
  | _ =>
      rfl

/- Less than half of the last place there is vanishes. -/
theorem nearest_of_lt
    {q : ℚ}
    (hq : 0 < q)
    (h : q < 2 ^ (-1075 : ℤ))
    (s : Sign) :
    nearest s q = .zero s := by
  have hLog := log_lt hq h
  have hPlace : lastPlace q = -1074 := by
    unfold lastPlace
    omega
  have hHalf : 2 * (q / 2 ^ (-1074 : ℤ)) < 1 := by
    have hUnit : (2 : ℚ) ^ (-1074 : ℤ) = 2 * 2 ^ (-1075 : ℤ) := by
      rw [← zpow_one_add₀ two_ne_zero]
      norm_num
    have hPos : (0 : ℚ) < 2 ^ (-1075 : ℤ) := by
      positivity
    have hSame :
        2 * (q / (2 * 2 ^ (-1075 : ℤ))) =
          q / (2 : ℚ) ^ (-1075 : ℤ) := by
      field_simp
    rw [hUnit, hSame, div_lt_one hPos]
    exact h
  have hShifted :
      (shiftToTargetExponent Format.binary64 0 (-1074)
        .exact).1.mantissa = 0 := by
    rw [shiftToTargetExponent_exact]
    simp [kept]
  rw [nearest, hPlace, roundedMantissa_kept_of_lt hHalf,
    settled, dif_pos hShifted]

/- A number that is not too small has all its digits. -/
theorem pow_le_div_lastPlace
    {q : ℚ}
    (hq : 0 < q)
    (h : -1022 ≤ Int.log 2 q) :
    (2 : ℚ) ^ 52 ≤ q / 2 ^ lastPlace q := by
  have hSelf : (2 : ℚ) ^ Int.log 2 q ≤ q := by
    exact_mod_cast Int.zpow_log_le_self (b := 2) one_lt_two hq
  have hPower :
      (2 : ℚ) ^ Int.log 2 q = 2 ^ 52 * 2 ^ lastPlace q := by
    rw [← zpow_natCast, ← zpow_add₀ two_ne_zero]
    congr 1
    unfold lastPlace
    push_cast
    omega
  rw [le_div_iff₀ (by positivity), ← hPower]
  exact hSelf

/- Settling a mantissa does not shift out its first digit. -/
theorem mantissa_kept_div_ne_zero
    {m n : Nat}
    (hm : m ≠ 0)
    (h : n ≤ m.log2) :
    (kept ((m : ℚ) / 2 ^ n)).mantissa ≠ 0 := by
  have hFloor : (kept ((m : ℚ) / 2 ^ n)).mantissa = m / 2 ^ n := by
    have hCast : ((2 : ℚ) ^ n) = ((2 ^ n : ℕ) : ℚ) := by
      push_cast
      rfl
    simp only [kept, hCast, Nat.floor_div_eq_div]
  rw [hFloor, Nat.div_ne_zero_iff]
  refine ⟨by positivity, ?_⟩
  calc 2 ^ n ≤ 2 ^ m.log2 := Nat.pow_le_pow_right (by decide) h
    _ ≤ m := Nat.log2_self_le hm

/- From there on doubles are infinite. -/
theorem pack_nearest_of_le
    {q : ℚ}
    (h : 2 ^ (1024 : ℤ) ≤ q)
    (s : Sign) :
    UnpackedFloat.pack Format.binary64 (nearest s q) =
      packedInfinity Format.binary64 s := by
  have hq : 0 < q := lt_of_lt_of_le (by positivity) h
  have hLog := le_log hq h
  have hPlace : 972 ≤ lastPlace q := by
    unfold lastPlace
    omega
  have hLeading := pow_le_div_lastPlace hq (by omega)
  generalize hRounded :
    (kept (q / 2 ^ lastPlace q)).roundedMantissa = m
  have hMantissa : 2 ^ 52 ≤ m := by
    rw [← hRounded]
    refine Nat.le_trans ?_ (le_roundedMantissa _)
    exact Nat.le_floor (by exact_mod_cast hLeading)
  have hm : m ≠ 0 := by
    omega
  have hLong : 52 ≤ m.log2 := (Nat.le_log2 hm).2 hMantissa
  generalize hShift :
    (max ((m.log2 : ℤ) + lastPlace q - 52) (-1074) -
      lastPlace q).toNat = n
  have hStays := mantissa_kept_div_ne_zero (n := n) hm (by omega)
  rw [nearest, hRounded, settled]
  simp only [shiftToTargetExponent_exact, hShift]
  rw [dif_neg hStays]
  -- The exponent field would have to hold 2047 or more.
  have hBias : (Format.binary64.exponentBias : ℤ) = 1023 := rfl
  simp only [UnpackedFloat.pack, hBias]
  rw [if_pos]
  show 2048 ≤ (lastPlace q + (n : ℤ) + 1023 + 52).toNat + 1
  omega

end Double

end StackCalc
