import StackCalc.Text.Basic

/-
  This file splits a line into tokens. Tokens stand apart
  by spaces, but a space inside brackets, braces or quotes
  separates nothing.

  Key definitions include:
    * `StackCalc.Nesting`
    * `StackCalc.Nesting.after`
    * `StackCalc.Nesting.isOutside`
    * `StackCalc.Token`
    * `StackCalc.Token.pieces`
    * `StackCalc.Token.tokenize`
    * `StackCalc.Token.split`
-/

------------------------------------------------------------
-- Nesting
------------------------------------------------------------

namespace StackCalc

/-
  How many square brackets and how many braces are open,
  which may be fewer than none, and whether a string is.
-/
structure Nesting where
  square : Int
  curly : Int
  quoted : Bool
deriving Repr, DecidableEq

namespace Nesting

/- The nesting at the start of a line. -/
def start : Nesting :=
  ⟨0, 0, false⟩

/- The nesting after one more character. -/
def after
    (n : Nesting)
    (c : Char) : Nesting :=
  if c = '[' then { n with square := n.square + 1 }
  else if c = ']' then { n with square := n.square - 1 }
  else if c = '{' then { n with curly := n.curly + 1 }
  else if c = '}' then { n with curly := n.curly - 1 }
  else if c = '"' then { n with quoted := !n.quoted }
  else n

/- Whether nothing is open. -/
def isOutside (n : Nesting) : Bool :=
  n.square ≤ 0 && n.curly ≤ 0 && !n.quoted

end Nesting

end StackCalc

------------------------------------------------------------
-- Tokens
------------------------------------------------------------

namespace StackCalc

/- A token and the position of its first character. -/
structure Token where
  text : Text
  pos : Nat
deriving Repr, DecidableEq

namespace Token

/- The position after the last character of a token. -/
def stop (t : Token) : Nat :=
  t.pos + t.text.length

/-
  The pieces of a text between its free spaces, the first
  of them apart. Two free spaces in a row have an empty
  piece between them.
-/
def pieces
    (n : Nesting) :
    Text → Text × List Text
  | [] => ([], [])
  | c :: rest =>
      if c = ' ' ∧ n.isOutside then
        let (p, ps) := pieces n rest
        ([], p :: ps)
      else
        let (p, ps) := pieces (n.after c) rest
        (c :: p, ps)

/-
  The pieces that are not empty, as tokens. The first
  piece stands at `pos`, the next one space further.
-/
def placed
    (pos : Nat) :
    List Text → List Token
  | [] => []
  | p :: ps =>
      let further := placed (pos + p.length + 1) ps
      if p.isEmpty then further else ⟨p, pos⟩ :: further

/- The tokens of a line. -/
def tokenize (line : Text) : List Token :=
  let (p, ps) := pieces Nesting.start line
  placed 0 (p :: ps)

/- The texts of the tokens of a line. -/
def split (line : Text) : List Text :=
  (tokenize line).map Token.text

/- The texts of placed pieces are those not empty. -/
theorem map_text_placed
    (pos : Nat)
    (ps : List Text) :
    (placed pos ps).map Token.text =
      ps.filter fun p => !p.isEmpty := by
  induction ps generalizing pos with
  | nil =>
      rfl
  | cons p ps ih =>
      cases p with
      | nil =>
          simp [placed, ih]
      | cons c p =>
          simp [placed, ih]

end Token

end StackCalc
