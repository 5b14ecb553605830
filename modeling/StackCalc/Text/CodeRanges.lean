/-
  This file defines sets of characters given by ranges of
  code points, the form in which the character classes of
  the language are tabulated.

  Key definitions include:
    * `StackCalc.CodeRanges`
    * `StackCalc.CodeRanges.contains`
-/

------------------------------------------------------------
-- Ranges Of Code Points
------------------------------------------------------------

namespace StackCalc

/-
  A set of characters, as a list of pairs of the first and
  the last code point of a range.
-/
abbrev CodeRanges :=
  List (Nat × Nat)

namespace CodeRanges

/- Whether some range holds the character. -/
def contains
    (rs : CodeRanges)
    (c : Char) : Bool :=
  rs.any fun r => r.1 ≤ c.toNat && c.toNat ≤ r.2

/- A character is held exactly when a range holds it. -/
theorem contains_iff
    {rs : CodeRanges}
    {c : Char} :
    rs.contains c = true ↔
      ∃ r ∈ rs, r.1 ≤ c.toNat ∧ c.toNat ≤ r.2 := by
  simp [contains]

end CodeRanges

end StackCalc
