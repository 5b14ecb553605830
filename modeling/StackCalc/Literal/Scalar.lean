import StackCalc.Literal.Numeral
import StackCalc.Literal.Reader
import StackCalc.Text.Digit
import StackCalc.Text.Letter
import StackCalc.Value.Basic

/-
  This file reads literals other than arrays: numerals,
  words and strings.

  Key definitions include:
    * `StackCalc.Scalar`
    * `StackCalc.Scalar.ofWord?`
    * `StackCalc.Scalar.read`
    * `StackCalc.Scalar.reader`
-/

------------------------------------------------------------
-- Scalars
------------------------------------------------------------

namespace StackCalc

/- What a literal that is not an array denotes. -/
inductive Scalar where
  | number (n : Number)
  | boolean (b : Bool)
  | string (t : Text)

namespace Scalar

/- The value of a scalar. -/
def toValue : Scalar → Value
  | number (.integer z) => .integer z
  | number (.float x) => .float x
  | boolean b => .boolean b
  | string t => .string t

end Scalar

end StackCalc

------------------------------------------------------------
-- Words
------------------------------------------------------------

namespace StackCalc

namespace Scalar

/- Whether a word can start with a character. -/
def isWordStart (c : Char) : Bool :=
  c.isAlpha || c = '_'

/- Whether a word can go on with a character. -/
def isWordChar (c : Char) : Bool :=
  c.isAlphanum || c = '_'

/- Whether a text starts with a word. -/
def startsWithWord (t : Text) : Bool :=
  t.head?.any isWordStart

/-
  What a word after a sign, or after none, denotes. Only a
  word for a number takes a sign.
-/
def ofWord? (sign word : Text) : Option Scalar :=
  if word = "Infinity".toList then
    some (.number (.float
      (signedFloat (sign = ['-']) (1.0 / 0.0))))
  else if word = "NaN".toList then
    some (.number (.float (0.0 / 0.0)))
  else if word = "true".toList ∧ sign = [] then
    some (.boolean true)
  else if word = "false".toList ∧ sign = [] then
    some (.boolean false)
  else
    none

/-
  Read the word at the start of `t`, which stands after
  `sign` in `whole`.
-/
def readWord
    (whole sign t : Text) : Reading Scalar :=
  if startsWithWord t then
    let word := t.takeWhile isWordChar
    match ofWord? sign word with
    | some s => .ok (s, t.dropWhile isWordChar)
    | none =>
        .error (.malformed (.unknownWord (sign ++ word)) whole)
  else
    .error (.malformed .missingWord t)

end Scalar

end StackCalc

------------------------------------------------------------
-- Numerals And Strings
------------------------------------------------------------

namespace StackCalc

namespace Scalar

/- Read a numeral. -/
def readNumber (t : Text) : Reading Scalar :=
  match Numeral.read t with
  | none => .error (.malformed .badNumber t)
  | some (n, r) =>
      match n.value? with
      | none => .error .tooManyDigits
      | some x => .ok (.number x, r)

/- Read the characters up to a closing quote. -/
def readString
    (whole t : Text) : Reading Scalar :=
  match t.dropWhile (· ≠ '"') with
  | [] => .error (.malformed .openString whole)
  | _ :: r =>
      .ok (.string (Text.inQuotes (t.takeWhile (· ≠ '"'))),
        r)

/- Whether a character is a sign. -/
def isSign (c : Char) : Bool :=
  c = '+' || c = '-'

/- Read a literal other than an array. -/
def read (t : Text) : Reading Scalar :=
  match t with
  | [] => .error (.malformed .missingLiteral t)
  | c :: rest =>
      if c = '"' then readString t rest
      else if isSign c && startsWithWord rest then
        readWord t [c] rest
      else if Text.isAnyDigit c || isSign c then
        readNumber t
      else if Text.isLetter c || c = '_' then
        readWord t [] t
      else
        .error (.malformed .missingLiteral t)

end Scalar

end StackCalc

------------------------------------------------------------
-- The Reader
------------------------------------------------------------

namespace StackCalc

namespace Scalar

/- Reading a word takes at least one character. -/
theorem length_lt_of_readWord
    {whole sign t r : Text}
    {s : Scalar}
    (h : readWord whole sign t = .ok (s, r)) :
    r.length < t.length := by
  unfold readWord at h
  split at h
  case isTrue hWord =>
    cases t with
    | nil =>
        simp [startsWithWord] at hWord
    | cons c rest =>
        have hStart : isWordStart c = true := by
          simpa [startsWithWord] using hWord
        have hChar : isWordChar c = true := by
          simp only [isWordStart, isWordChar,
            Char.isAlphanum, Bool.or_eq_true] at hStart ⊢
          rcases hStart with hAlpha | hLow
          · exact .inl (.inl hAlpha)
          · exact .inr hLow
        have hDrop :=
          (List.dropWhile_suffix isWordChar
            (l := rest)).length_le
        simp only [List.dropWhile_cons, hChar, if_true]
          at h
        split at h
        · simp only [Except.ok.injEq, Prod.mk.injEq] at h
          obtain ⟨_, rfl⟩ := h
          simp only [List.length_cons]
          omega
        · simp at h
  case isFalse =>
    simp at h

/- Reading a numeral takes at least one character. -/
theorem length_lt_of_readNumber
    {t r : Text}
    {s : Scalar}
    (h : readNumber t = .ok (s, r)) :
    r.length < t.length := by
  unfold readNumber at h
  split at h
  case h_1 =>
    simp at h
  case h_2 n r' hRead =>
    split at h
    · simp at h
    · simp only [Except.ok.injEq, Prod.mk.injEq] at h
      obtain ⟨_, rfl⟩ := h
      exact Numeral.length_lt_of_read hRead

/- Reading a string takes at least its closing quote. -/
theorem length_lt_of_readString
    {whole t r : Text}
    {s : Scalar}
    (h : readString whole t = .ok (s, r)) :
    r.length < t.length := by
  unfold readString at h
  split at h
  case h_1 =>
    simp at h
  case h_2 c r' hDrop =>
    have hLe :=
      (List.dropWhile_suffix (fun c => decide (c ≠ '"'))
        (l := t)).length_le
    rw [hDrop, List.length_cons] at hLe
    simp only [Except.ok.injEq, Prod.mk.injEq] at h
    obtain ⟨_, rfl⟩ := h
    omega

/- Reading a scalar takes at least one character. -/
theorem length_lt_of_read
    {t r : Text}
    {s : Scalar}
    (h : read t = .ok (s, r)) :
    r.length < t.length := by
  unfold read at h
  split at h
  case h_1 =>
    simp at h
  case h_2 c rest =>
    split at h
    · have hLt := length_lt_of_readString h
      simp only [List.length_cons]
      omega
    · split at h
      · have hLt := length_lt_of_readWord h
        simp only [List.length_cons]
        omega
      · split at h
        · exact length_lt_of_readNumber h
        · split at h
          · exact length_lt_of_readWord h
          · simp at h

end Scalar

end StackCalc
