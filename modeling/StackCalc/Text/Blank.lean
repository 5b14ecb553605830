import StackCalc.Text.Basic
import StackCalc.Text.CodeRanges

/-
  This file defines blank characters: the separators of
  Unicode together with the control characters that move
  the cursor. Blanks may surround literals and their parts.

  Key definitions include:
    * `StackCalc.Text.isBlank`
    * `StackCalc.Text.dropBlanks`
    * `StackCalc.Text.strip`
-/

------------------------------------------------------------
-- Blank Characters
------------------------------------------------------------

namespace StackCalc

namespace Text

/- The code points of blank characters. -/
def blankRanges : CodeRanges :=
  [ (0x9, 0xd), (0x1c, 0x20), (0x85, 0x85), (0xa0, 0xa0),
    (0x1680, 0x1680), (0x2000, 0x200a), (0x2028, 0x2029),
    (0x202f, 0x202f), (0x205f, 0x205f), (0x3000, 0x3000) ]

/- Whether a character is blank. -/
def isBlank (c : Char) : Bool :=
  blankRanges.contains c

/- A text from its first character that is not blank. -/
def dropBlanks (t : Text) : Text :=
  t.dropWhile isBlank

/- A text without the blanks at its two ends. -/
def strip (t : Text) : Text :=
  (dropBlanks (dropBlanks t).reverse).reverse

/- Dropping blanks never lengthens a text. -/
theorem length_dropBlanks_le
    (t : Text) :
    (dropBlanks t).length ≤ t.length :=
  (List.dropWhile_suffix isBlank).length_le

/- A text that starts with no blank keeps all of it. -/
theorem dropBlanks_cons
    {c : Char}
    {t : Text}
    (h : isBlank c = false) :
    dropBlanks (c :: t) = c :: t := by
  simp [dropBlanks, h]

/- A leading blank is dropped. -/
theorem dropBlanks_cons_blank
    {c : Char}
    {t : Text}
    (h : isBlank c = true) :
    dropBlanks (c :: t) = dropBlanks t := by
  simp [dropBlanks, h]

end Text

end StackCalc
