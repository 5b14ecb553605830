import StackCalc.Text.Basic
import StackCalc.Text.Printable

/-
  This file writes a text between quotes for use inside a
  message, so that the message shows where the text starts
  and ends and which characters it holds.

  Key definitions include:
    * `StackCalc.Text.quoteMark`
    * `StackCalc.Text.escape`
    * `StackCalc.Text.quoted`
-/

------------------------------------------------------------
-- Escapes
------------------------------------------------------------

namespace StackCalc

namespace Text

/- A number in hexadecimal, on at least `width` digits. -/
def hex
    (width n : Nat) : Text :=
  let ds := Nat.toDigits 16 n
  List.replicate (width - ds.length) '0' ++ ds

/-
  How one character is written between the quotes `mark`.
  The backslash and the quote mark get a backslash, line
  and tab characters their letters, and all others that
  are not printable their code point.
-/
def escape
    (mark c : Char) : Text :=
  if c = '\\' ∨ c = mark then ['\\', c]
  else if c = '\n' then ['\\', 'n']
  else if c = '\r' then ['\\', 'r']
  else if c = '\t' then ['\\', 't']
  else if isPrintable c then [c]
  else if c.toNat < 0x100 then '\\' :: 'x' :: hex 2 c.toNat
  else if c.toNat < 0x10000 then
    '\\' :: 'u' :: hex 4 c.toNat
  else '\\' :: 'U' :: hex 8 c.toNat

end Text

end StackCalc

------------------------------------------------------------
-- Quoted Texts
------------------------------------------------------------

namespace StackCalc

namespace Text

/-
  The mark a text is quoted with: the apostrophe, or the
  double quote for a text that holds apostrophes and no
  double quotes.
-/
def quoteMark (t : Text) : Char :=
  if t.contains '\'' && !t.contains '"' then '"' else '\''

/- A text between quote marks, with its escapes. -/
def quoted (t : Text) : Text :=
  let mark := quoteMark t
  mark :: (t.flatMap (escape mark) ++ [mark])

end Text

end StackCalc
