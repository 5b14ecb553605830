import StackCalc.Run.Basic

/-
  How a token is carried out, by what it looks like. Every
  proof about running programs goes through these lemmas.

  Main declarations:
    * `Operator.ofName?_eq_none`
    * `Run.dispatch_name`
    * `Run.dispatch_quote`
    * `Run.dispatch_block`
    * `Run.dispatch_literal`
    * `Run.applyBlock_eq_ok`
-/

------------------------------------------------------------
-- Names
------------------------------------------------------------

namespace StackCalc

namespace Operator

/-
  Whether a character stands in no name of an operator:
  digits, brackets, braces and quotes.
-/
def isForeign (c : Char) : Bool :=
  all.all fun op => !op.name.contains c

/- A text with a foreign character names no operator. -/
theorem ofName?_eq_none
    {t : Text}
    {c : Char}
    (hForeign : isForeign c = true)
    (hMem : c ∈ t) :
    ofName? t = none := by
  rw [ofName?, List.find?_eq_none]
  intro op hOp hName
  have hAbsent := List.all_eq_true.1 hForeign op hOp
  have hEq : op.name = t := by
    simpa using hName
  rw [hEq] at hAbsent
  simp [hMem] at hAbsent

/- A digit is foreign to the names of operators. -/
theorem isForeign_of_isDigit
    {d : Char}
    (hd : d.isDigit = true) :
    isForeign d = true := by
  have hNames :
      (all.all fun op => op.name.all fun c => !c.isDigit) =
        true :=
    rfl
  rw [isForeign, List.all_eq_true]
  intro op hOp
  simp only [Bool.not_eq_true', List.contains_eq_mem,
    decide_eq_false_iff_not]
  intro hMem
  have hDigit :=
    List.all_eq_true.1 (List.all_eq_true.1 hNames op hOp) d
      hMem
  simp [hd] at hDigit

end Operator

end StackCalc

------------------------------------------------------------
-- Tokens
------------------------------------------------------------

namespace StackCalc

namespace Run

/- A token that names an operator is applied. -/
theorem dispatch_operator
    {t : Text}
    {op : Operator}
    (h : Operator.ofName? t = some op)
    (depth : Nat)
    (s : Stack) :
    dispatch (depth + 1) t s =
      perform (dispatch depth) op s := by
  simp only [dispatch, h]

/- The name of an operator applies it. -/
theorem dispatch_name
    (op : Operator)
    (depth : Nat)
    (s : Stack) :
    dispatch (depth + 1) op.name s =
      perform (dispatch depth) op s :=
  dispatch_operator (Operator.ofName?_name op) depth s

/- A token after an apostrophe is pushed. -/
theorem dispatch_quote
    (t : Text)
    (depth : Nat)
    (s : Stack) :
    dispatch (depth + 1) ('\'' :: t) s = quote t s := by
  have hNone : Operator.ofName? ('\'' :: t) = none :=
    Operator.ofName?_eq_none (by decide) List.mem_cons_self
  simp only [dispatch, hNone]

/- A token that starts with a brace is run as a block. -/
theorem dispatch_block
    (t : Text)
    (depth : Nat)
    (s : Stack) :
    dispatch (depth + 1) ('{' :: t) s =
      applyBlock (dispatch depth) ('{' :: t) s := by
  have hNone : Operator.ofName? ('{' :: t) = none :=
    Operator.ofName?_eq_none (by decide) List.mem_cons_self
  simp only [dispatch, hNone]

/- Any other token is pushed as a literal. -/
theorem dispatch_literal
    {t : Text}
    (hNone : Operator.ofName? t = none)
    (hQuote : t.head? ≠ some '\'')
    (hBrace : t.head? ≠ some '{')
    (depth : Nat)
    (s : Stack) :
    dispatch (depth + 1) t s = literal t s := by
  simp only [dispatch, hNone]
  split
  · exact absurd rfl hQuote
  · exact absurd rfl hBrace
  · rfl

/- A block leaves what its line gives on its own stack. -/
theorem applyBlock_eq_ok
    {step : Text → Stack → Outcome}
    {source line : Text}
    {s rest scope : Stack}
    {b : Block}
    {args : List Value}
    (hParse : Block.parse source = .ok b)
    (hArgs : Stack.popMany b.arity source s = .ok (args, rest))
    (hLine : b.substitute args = .ok line)
    (hRun : tokens step (Token.split line) [] = .ok scope) :
    applyBlock step source s = .ok (scope ++ rest) := by
  simp only [applyBlock, hParse, hArgs, hLine, hRun]

end Run

end StackCalc
