import StackCalc.Decimal.Shortest
import StackCalc.Numbers.Number

/-
  This file reads numerals: a sign, digits, a fraction and
  an exponent, of which only the digits must be there. An
  underscore may stand between two digits. A numeral with
  a fraction or an exponent is a double.

  Key definitions include:
    * `StackCalc.Numeral`
    * `StackCalc.Numeral.groupedDigits`
    * `StackCalc.Numeral.read`
    * `StackCalc.Numeral.value?`
    * `StackCalc.Numeral.ofText?`
-/

------------------------------------------------------------
-- Parts
------------------------------------------------------------

namespace StackCalc

/-
  The parts of a numeral. Digits are kept as they were
  written, less the underscores between them.
-/
structure Numeral where
  negative : Bool
  whole : Text
  fraction : Option Text
  exponent : Option Int
deriving Repr, DecidableEq

namespace Numeral

/- Take a sign off a text, if there is one. -/
def takeSign : Text → Bool × Text
  | '-' :: rest => (true, rest)
  | '+' :: rest => (false, rest)
  | t => (false, t)

/- Whether a text starts with a digit. -/
def startsWithDigit (t : Text) : Bool :=
  t.head?.any Char.isDigit

/-
  Take digits off a text, as far as they go. An underscore
  between two digits is passed over; `afterDigit` says
  whether a digit stands right before the text.
-/
def groupedDigits
    (afterDigit : Bool) :
    Text → Text × Text
  | [] => ([], [])
  | c :: rest =>
      if c.isDigit then
        let (ds, r) := groupedDigits true rest
        (c :: ds, r)
      else if c = '_' ∧ afterDigit ∧ startsWithDigit rest then
        groupedDigits false rest
      else
        ([], c :: rest)

/- Take a point and digits off a text. -/
def takeFraction : Text → Option Text × Text
  | '.' :: rest =>
      if startsWithDigit rest then
        let (ds, r) := groupedDigits false rest
        (some ds, r)
      else
        (none, '.' :: rest)
  | t => (none, t)

/- Take the letter E, a sign and digits off a text. -/
def takeExponent (t : Text) : Option Int × Text :=
  match t with
  | [] => (none, [])
  | c :: rest =>
      let (negative, r) := takeSign rest
      if (c = 'e' ∨ c = 'E') ∧ startsWithDigit r then
        let n : Int :=
          Decimal.natValue (r.takeWhile Char.isDigit)
        (some (if negative then -n else n),
          r.dropWhile Char.isDigit)
      else
        (none, t)

/- Take a numeral off a text. -/
def read (t : Text) : Option (Numeral × Text) :=
  let (negative, r₁) := takeSign t
  if startsWithDigit r₁ then
    let (whole, r₂) := groupedDigits false r₁
    let (fraction, r₃) := takeFraction r₂
    let (exponent, r₄) := takeExponent r₃
    some (⟨negative, whole, fraction, exponent⟩, r₄)
  else
    none

end Numeral

end StackCalc

------------------------------------------------------------
-- Lengths
------------------------------------------------------------

namespace StackCalc

namespace Numeral

/- Taking a sign never lengthens a text. -/
theorem length_takeSign_le
    (t : Text) :
    (takeSign t).2.length ≤ t.length := by
  unfold takeSign
  split <;> simp

/- Digits and rest are no longer than the text. -/
theorem length_groupedDigits_le
    (b : Bool)
    (t : Text) :
    (groupedDigits b t).1.length +
      (groupedDigits b t).2.length ≤ t.length := by
  induction t generalizing b with
  | nil =>
      simp [groupedDigits]
  | cons c rest ih =>
      have hTrue := ih true
      have hFalse := ih false
      unfold groupedDigits
      split
      · simp only [List.length_cons]
        omega
      · split
        · simp only [List.length_cons]
          omega
        · simp

/- A text that starts with a digit loses it. -/
theorem length_groupedDigits_lt
    {b : Bool}
    {t : Text}
    (h : startsWithDigit t = true) :
    (groupedDigits b t).2.length < t.length := by
  cases t with
  | nil =>
      simp [startsWithDigit] at h
  | cons c rest =>
      have hDigit : c.isDigit = true := by
        simpa [startsWithDigit] using h
      have hRest := length_groupedDigits_le true rest
      simp only [groupedDigits, hDigit, if_true,
        List.length_cons]
      omega

/- Taking a fraction never lengthens a text. -/
theorem length_takeFraction_le
    (t : Text) :
    (takeFraction t).2.length ≤ t.length := by
  unfold takeFraction
  split
  · split
    · rename_i rest _
      have hRest := length_groupedDigits_le false rest
      simp only [List.length_cons]
      omega
    · simp
  · simp

/- Taking an exponent never lengthens a text. -/
theorem length_takeExponent_le
    (t : Text) :
    (takeExponent t).2.length ≤ t.length := by
  cases t with
  | nil =>
      simp [takeExponent]
  | cons c rest =>
      have hSign := length_takeSign_le rest
      have hDrop :=
        (List.dropWhile_suffix Char.isDigit
          (l := (takeSign rest).2)).length_le
      simp only [takeExponent]
      split
      · simp only [List.length_cons]
        omega
      · simp

/- Reading a numeral takes at least one character. -/
theorem length_lt_of_read
    {t r : Text}
    {n : Numeral}
    (h : read t = some (n, r)) :
    r.length < t.length := by
  unfold read at h
  simp only at h
  split at h
  case isTrue hDigit =>
    simp only [Option.some.injEq, Prod.mk.injEq] at h
    obtain ⟨_, rfl⟩ := h
    have h₁ := length_takeSign_le t
    have h₂ := length_groupedDigits_lt (b := false) hDigit
    have h₃ := length_takeFraction_le
      (groupedDigits false (takeSign t).2).2
    have h₄ := length_takeExponent_le
      (takeFraction
        (groupedDigits false (takeSign t).2).2).2
    omega
  case isFalse =>
    simp at h

end Numeral

end StackCalc

------------------------------------------------------------
-- Values
------------------------------------------------------------

namespace StackCalc

namespace Numeral

/- Whether a numeral denotes an integer. -/
def isInteger (n : Numeral) : Bool :=
  n.fraction.isNone && n.exponent.isNone

/- The decimal that the digits of a numeral denote. -/
def magnitude (n : Numeral) : Decimal.Scientific :=
  let fraction := n.fraction.getD []
  { mantissa := Decimal.natValue (n.whole ++ fraction)
    exponent := n.exponent.getD 0 - fraction.length }

/- The double nearest to what a numeral denotes. -/
def toFloat (n : Numeral) : Float :=
  signedFloat n.negative n.magnitude.toFloat

/-
  The number that a numeral denotes. An integer may not
  have too many digits.
-/
def value? (n : Numeral) : Option Number :=
  if n.isInteger then
    (Decimal.natValue? n.whole).map fun m =>
      .integer (if n.negative then -m else m)
  else
    some (.float n.toFloat)

/- The numeral that a whole text is. -/
def ofText? (t : Text) : Option Numeral :=
  match read t with
  | some (n, []) => some n
  | _ => none

end Numeral

end StackCalc
