import StackCalc.Text.Basic

/-
  This file splits a text into lines. A line ends at any of
  ten characters, a carriage return directly before a line
  feed counting with it as one end.

  Key definitions include:
    * `StackCalc.Text.isLineEnd`
    * `StackCalc.Text.lines`
    * `StackCalc.Text.dropLineFeeds`
-/

------------------------------------------------------------
-- Line Ends
------------------------------------------------------------

namespace StackCalc

namespace Text

/- Whether a character ends a line. -/
def isLineEnd (c : Char) : Bool :=
  [ '\n', '\r', '\x0b', '\x0c', '\x1c', '\x1d', '\x1e',
    '\u0085', '\u2028', '\u2029' ].contains c

/-
  The lines of a text, without their ends. The text `cur`
  holds the characters of the current line, last first; a
  line at the end of the text counts unless it is empty.
-/
def linesFrom
    (cur : Text) :
    Text → List Text
  | [] => if cur.isEmpty then [] else [cur.reverse]
  | '\r' :: '\n' :: rest => cur.reverse :: linesFrom [] rest
  | c :: rest =>
      if isLineEnd c then cur.reverse :: linesFrom [] rest
      else linesFrom (c :: cur) rest

/- The lines of a text, without their ends. -/
def lines (t : Text) : List Text :=
  linesFrom [] t

/-
  A text without the carriage returns and line feeds at
  its end.
-/
def dropLineFeeds (t : Text) : Text :=
  (t.reverse.dropWhile fun c =>
    c = '\n' || c = '\r').reverse

end Text

end StackCalc
