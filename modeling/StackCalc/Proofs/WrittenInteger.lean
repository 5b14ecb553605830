import StackCalc.Literal.Scalar
import StackCalc.Numbers.Storage
import StackCalc.Text.Blank

/-
  Integers as they are written are read back: the reader of
  scalars takes exactly the digits of a written integer off
  a text, as long as what follows does not go on with the
  number.

  Main declarations:
    * `Numeral.endsNumeral`
    * `Decimal.natValue?_natText`
    * `Numeral.read_intText`
    * `Scalar.read_intText`
-/

------------------------------------------------------------
-- Digit Characters
------------------------------------------------------------

namespace StackCalc

namespace Text

/- The code points of the ASCII digits. -/
theorem bounds_of_isDigit
    {d : Char}
    (hd : d.isDigit = true) :
    48 ≤ d.toNat ∧ d.toNat ≤ 57 := by
  simp only [Char.isDigit, Bool.and_eq_true,
    decide_eq_true_eq] at hd
  exact hd

/- A digit is no character that is not one. -/
theorem ne_of_isDigit
    {c d : Char}
    (hd : d.isDigit = true)
    (hc : c.isDigit = false) :
    d ≠ c := by
  rintro rfl
  rw [hd] at hc
  exact Bool.noConfusion hc

/- A digit is not blank. -/
theorem isBlank_of_isDigit
    {d : Char}
    (hd : d.isDigit = true) :
    isBlank d = false := by
  rcases bounds_of_isDigit hd with ⟨hLow, hHigh⟩
  simp [isBlank, blankRanges, CodeRanges.contains]
  omega

end Text

end StackCalc

------------------------------------------------------------
-- Written Digits
------------------------------------------------------------

namespace StackCalc

namespace Decimal

/- Only digits are written for a natural number. -/
theorem isDigit_of_mem_natText
    {n : Nat}
    {c : Char}
    (h : c ∈ natText n) :
    c.isDigit = true :=
  Nat.isDigit_of_mem_toDigits (by decide) (by decide) h

/- At least one digit is written. -/
theorem exists_natText_eq_cons
    (n : Nat) :
    ∃ d ds, natText n = d :: ds ∧ d.isDigit = true := by
  rcases List.exists_cons_of_ne_nil
      (Nat.toDigits_ne_nil (n := n) (b := 10)) with
    ⟨d, ds, hCons⟩
  refine ⟨d, ds, hCons, ?_⟩
  apply isDigit_of_mem_natText (n := n)
  unfold natText
  rw [hCons]
  exact List.mem_cons_self

theorem isShort_natCast_iff
    {n : Nat} :
    isShort (n : Int) = true ↔ n < Nat.pow 10 maxDigits := by
  simp [isShort]

/- A short number is one with few digits. -/
theorem length_natText_le_iff
    (n : Nat) :
    (natText n).length ≤ maxDigits ↔
      isShort (n : Int) = true := by
  rw [isShort_natCast_iff, natText,
    Nat.length_toDigits_le_iff (by decide) (by decide),
    Nat.pow_eq]

/- A short number as written is read back. -/
theorem natValue?_natText
    {n : Nat}
    (h : isShort (n : Int) = true) :
    natValue? (natText n) = some n := by
  unfold natValue?
  rw [if_pos ((length_natText_le_iff n).2 h),
    natValue_natText]

/- A short integer is written. -/
theorem intText?_of_isShort
    {z : Int}
    (h : isShort z = true) :
    intText? z = some (intText z) := by
  rw [intText?, if_pos h]

/- Whether an integer is short depends on its size alone. -/
theorem isShort_natAbs
    (z : Int) :
    isShort (z.natAbs : Int) = isShort z := by
  rw [isShort, isShort, Int.natAbs_natCast]

/- A smaller number than a short one is short. -/
theorem isShort_of_lt
    {m n : Nat}
    (hLt : m < n)
    (h : isShort (n : Int) = true) :
    isShort (m : Int) = true := by
  rw [isShort_natCast_iff] at h ⊢
  exact Nat.lt_trans hLt h

/- Whatever fits into storage is short. -/
theorem isShort_of_fits
    {z : Int}
    (h : Storage.fits z = true) :
    isShort z = true := by
  have hPow : ∀ k, 19 ≤ k → Nat.pow 10 19 ≤ Nat.pow 10 k :=
    fun _ hk => Nat.pow_le_pow_right (by decide) hk
  rcases Storage.fits_iff.1 h with ⟨hLeast, hGreatest⟩
  have hSize : z.natAbs < Nat.pow 10 19 := by
    simp only [Storage.least, Storage.greatest]
      at hLeast hGreatest
    show z.natAbs < 10000000000000000000
    omega
  exact decide_eq_true
    (Nat.lt_of_lt_of_le hSize (hPow maxDigits (by decide)))

end Decimal

end StackCalc

------------------------------------------------------------
-- Numerals
------------------------------------------------------------

namespace StackCalc

namespace Numeral

open Decimal

/-
  Whether a text leaves the digits before it alone: it goes
  on with no digit, no underscore, no fraction and no
  exponent.
-/
def endsNumeral (rest : Text) : Bool :=
  rest.head?.all fun c =>
    !(c.isDigit || c = '_' || c = '.' || c = 'e' || c = 'E')

/- Such a text is empty or starts with another character. -/
theorem endsNumeral_cons_iff
    {c : Char}
    {rest : Text} :
    endsNumeral (c :: rest) = true ↔
      c.isDigit = false ∧ c ≠ '_' ∧ c ≠ '.' ∧ c ≠ 'e' ∧
        c ≠ 'E' := by
  simp [endsNumeral, and_assoc]

/- All the digits are taken, and nothing else. -/
theorem groupedDigits_append
    {ds rest : Text}
    (b : Bool)
    (hDigits : ∀ c ∈ ds, c.isDigit = true)
    (hEnd : endsNumeral rest = true) :
    groupedDigits b (ds ++ rest) = (ds, rest) := by
  induction ds generalizing b with
  | nil =>
      cases rest with
      | nil =>
          rfl
      | cons c rest =>
          rcases endsNumeral_cons_iff.1 hEnd with
            ⟨hDigit, hLow, -⟩
          simp [groupedDigits, hDigit, hLow]
  | cons d ds ih =>
      have hd : d.isDigit = true :=
        hDigits d List.mem_cons_self
      have hRest := ih true fun c hc =>
        hDigits c (List.mem_cons_of_mem d hc)
      simp [groupedDigits, hd, hRest]

/- There is no fraction where the numeral ends. -/
theorem takeFraction_of_endsNumeral
    {rest : Text}
    (hEnd : endsNumeral rest = true) :
    takeFraction rest = (none, rest) := by
  unfold takeFraction
  split
  · have hPoint := (endsNumeral_cons_iff.1 hEnd).2.2.1
    exact absurd rfl hPoint
  · rfl

/- There is no exponent where the numeral ends. -/
theorem takeExponent_of_endsNumeral
    {rest : Text}
    (hEnd : endsNumeral rest = true) :
    takeExponent rest = (none, rest) := by
  cases rest with
  | nil =>
      rfl
  | cons c rest =>
      rcases endsNumeral_cons_iff.1 hEnd with
        ⟨-, -, -, hLower, hUpper⟩
      simp [takeExponent, hLower, hUpper]

/- No sign stands before a digit. -/
theorem takeSign_cons_digit
    {d : Char}
    {ds : Text}
    (hd : d.isDigit = true) :
    takeSign (d :: ds) = (false, d :: ds) := by
  unfold takeSign
  split
  · simp_all [Char.isDigit]
  · simp_all [Char.isDigit]
  · rfl

/- The sign of a written integer is taken off. -/
theorem takeSign_intText
    (z : Int)
    (rest : Text) :
    takeSign (intText z ++ rest) =
      (decide (z < 0), natText z.natAbs ++ rest) := by
  rcases exists_natText_eq_cons z.natAbs with
    ⟨d, ds, hCons, hd⟩
  by_cases hNeg : z < 0
  · simp [intText, hNeg, takeSign]
  · rw [intText, if_neg hNeg, hCons, List.cons_append,
      takeSign_cons_digit hd]
    simp [hNeg]

/- A written integer is a numeral with digits only. -/
theorem read_intText
    {z : Int}
    {rest : Text}
    (hEnd : endsNumeral rest = true) :
    read (intText z ++ rest) =
      some (⟨decide (z < 0), natText z.natAbs, none, none⟩,
        rest) := by
  have hStart :
      startsWithDigit (natText z.natAbs ++ rest) = true := by
    rcases exists_natText_eq_cons z.natAbs with
      ⟨d, ds, hCons, hd⟩
    simp [startsWithDigit, hCons, hd]
  have hDigits :
      groupedDigits false (natText z.natAbs ++ rest) =
        (natText z.natAbs, rest) :=
    groupedDigits_append false
      (fun _ hc => isDigit_of_mem_natText hc) hEnd
  unfold read
  simp only [takeSign_intText, hStart, if_true, hDigits,
    takeFraction_of_endsNumeral hEnd,
    takeExponent_of_endsNumeral hEnd]

/- The number that a written short integer denotes. -/
theorem value?_intText
    {z : Int}
    (h : isShort z = true) :
    value? ⟨decide (z < 0), natText z.natAbs, none, none⟩ =
      some (.integer z) := by
  have hValue :=
    natValue?_natText ((isShort_natAbs z).trans h)
  have hSign :
      (if decide (z < 0) then -(z.natAbs : Int)
        else z.natAbs) = z := by
    simp only [decide_eq_true_eq]
    split <;> omega
  unfold value?
  simp only [isInteger, Option.isNone_none, Bool.and_self,
    if_true, hValue, Option.bind_eq_bind, Option.bind_some,
    Option.pure_def, Option.map_some, hSign]

end Numeral

end StackCalc

------------------------------------------------------------
-- Scalars
------------------------------------------------------------

namespace StackCalc

namespace Scalar

open Decimal

/- A digit starts no word. -/
theorem isWordStart_of_isDigit
    {d : Char}
    (hd : d.isDigit = true) :
    isWordStart d = false := by
  rcases Text.bounds_of_isDigit hd with ⟨hLow, hHigh⟩
  have hUpper : d.isUpper = false := by
    apply decide_eq_false
    rintro ⟨h, -⟩
    have hA : 65 ≤ d.toNat := h
    omega
  have hLower : d.isLower = false := by
    apply Bool.and_eq_false_iff.2
    left
    apply decide_eq_false
    intro h
    have hA : 97 ≤ d.toNat := h
    omega
  have hAlpha : d.isAlpha = false :=
    Bool.or_eq_false_iff.2 ⟨hUpper, hLower⟩
  have hUnderscore : d ≠ '_' := Text.ne_of_isDigit hd rfl
  simp [isWordStart, hAlpha, hUnderscore]

/- A written integer is taken for a number. -/
theorem read_intText_eq_readNumber
    (z : Int)
    (rest : Text) :
    read (intText z ++ rest) =
      readNumber (intText z ++ rest) := by
  rcases exists_natText_eq_cons z.natAbs with
    ⟨d, ds, hCons, hd⟩
  by_cases hNeg : z < 0
  · have hWord :
        startsWithWord (d :: (ds ++ rest)) = false := by
      simp [startsWithWord, isWordStart_of_isDigit hd]
    simp [intText, hNeg, hCons, read, isSign, hWord]
  · have hQuote : d ≠ '"' := Text.ne_of_isDigit hd rfl
    have hPlus : d ≠ '+' := Text.ne_of_isDigit hd rfl
    have hMinus : d ≠ '-' := Text.ne_of_isDigit hd rfl
    simp [intText, hNeg, hCons, read, isSign, hQuote, hPlus,
      hMinus, Text.isAnyDigit_of_isDigit hd]

/- A written short integer is read as that integer. -/
theorem read_intText
    {z : Int}
    {rest : Text}
    (hShort : isShort z = true)
    (hEnd : Numeral.endsNumeral rest = true) :
    read (intText z ++ rest) =
      .ok (.number (.integer z), rest) := by
  rw [read_intText_eq_readNumber, readNumber,
    Numeral.read_intText hEnd]
  simp only [Numeral.value?_intText hShort]

end Scalar

end StackCalc
