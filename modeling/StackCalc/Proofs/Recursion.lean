import Mathlib.Data.Nat.Factorial.Basic
import StackCalc.Proofs.BlockArguments

/-
  Recursion through SELF. A block that pushes itself can
  evaluate itself on a smaller number, and stops where it
  chooses another block instead.

  The block here computes factorials. One level of it is a
  line of twelve tokens: ten lay out the number, the number
  below it and the block to go on with; EVAL carries that
  block out, which is the level below; and the last token
  multiplies. The induction is on the number, and every
  level takes two steps of depth.

  Main declarations:
    * `Block.factorial`
    * `Block.substitute_factorial`
    * `Run.tokens_factorialLayout`
    * `Run.dispatch_factorialEnd`
    * `Run.dispatch_factorial`
-/

------------------------------------------------------------
-- The Block
------------------------------------------------------------

namespace StackCalc

namespace Block

/- The line of the block for factorials. -/
def factorialLine : Text :=
  "x0 x0 1 - SELF '\x7b1|1\x7d x0 1 > IFELSE EVAL *".toList

/- The block that replaces a number by its factorial. -/
def factorial : Text :=
  "\x7b1|x0 x0 1 - SELF '\x7b1|1\x7d x0 1 > IFELSE EVAL *\x7d".toList

/- The block that replaces a number by one. -/
def factorialEnd : Text :=
  "\x7b1|1\x7d".toList

/- The tokens that lay out a level for the number `n`. -/
def factorialLayout (n : Nat) : List Text :=
  [ Decimal.intText n, Decimal.intText n, "1".toList,
    BinaryOp.subtract.name, '\'' :: factorial,
    '\'' :: factorialEnd, Decimal.intText n, "1".toList,
    BinaryOp.greater.name, Operator.conditional.name ]

/- The tokens of a level for the number `n`. -/
def factorialTokens (n : Nat) : List Text :=
  factorialLayout n ++
    [UnaryOp.evaluate.name, BinaryOp.multiply.name]

theorem parse_factorial :
    parse factorial = .ok ⟨factorial, 1, factorialLine⟩ :=
  parse_written (n := 1) (Decimal.isShort_of_fits (by decide))
    factorialLine

theorem parse_factorialEnd :
    parse factorialEnd = .ok ⟨factorialEnd, 1, "1".toList⟩ :=
  parse_written (n := 1) (Decimal.isShort_of_fits (by decide))
    "1".toList

/- There is neither an `x` nor an `S` in a number. -/
theorem not_mem_intText
    {c : Char}
    (hc : Value.isSpelling c = false)
    (z : Int) :
    c ∉ Decimal.intText z := by
  intro hMem
  rw [Value.isSpelling_of_mem_intText hMem] at hc
  exact Bool.noConfusion hc

/-
  The line of a level: the number for each placeholder, and
  the block itself, its placeholders untouched, for SELF.
-/
theorem substitute_factorial
    {n : Nat}
    (h : Decimal.isShort n = true) :
    substitute ⟨factorial, 1, factorialLine⟩ [.integer n] =
      .ok (Text.joinWith [' '] (factorialTokens n)) := by
  let t := Decimal.intText n
  have hNumber :
      ∀ {rest more : Text},
        Numeral.startsWithDigit rest = false →
        fill factorial [.integer n] rest = .ok more →
        fill factorial [.integer n] (placeholderText 0 ++ rest) =
          .ok (t ++ more) := by
    intro rest more hEnd hRest
    exact fill_placeholder
      (Decimal.isShort_of_fits (by decide)) rfl
      (Decimal.intText?_of_isShort h) hEnd hRest
  have hNil : fill factorial [.integer n] [] = .ok [] := by
    rw [fill]
  -- the line is filled from its end
  have hLast :=
    hNumber rfl (fill_append (t := " 1 > IFELSE EVAL *".toList)
      (by decide) hNil)
  have hMiddle :=
    hNumber rfl (fill_append (t := " 1 - SELF '\x7b1|1\x7d ".toList)
      (by decide) hLast)
  have hFilled :
      fill factorial [.integer n] factorialLine = _ :=
    hNumber rfl (fill_append (t := [' ']) (by decide) hMiddle)
  have hDigits : 'S' ∉ t := not_mem_intText (by decide) n
  have hSelf :
      ∀ rest,
        insertSelf ('\'' :: factorial)
            (" 1 - SELF '\x7b1|1\x7d ".toList ++ rest) =
          " 1 - ".toList ++ ('\'' :: factorial) ++
            " '\x7b1|1\x7d ".toList ++
            insertSelf ('\'' :: factorial) rest :=
    fun _ => rfl
  have hEnd :
      insertSelf ('\'' :: factorial)
          (" 1 > IFELSE EVAL *".toList ++ []) =
        " 1 > IFELSE EVAL *".toList :=
    rfl
  simp only [substitute, hFilled]
  show Except.ok (insertSelf _ _) = _
  rw [insertSelf_append _ _ hDigits,
    insertSelf_append _ _ (by decide),
    insertSelf_append _ _ hDigits, hSelf,
    insertSelf_append _ _ hDigits, hEnd]
  simp only [factorialTokens, factorialLayout, Text.joinWith,
    List.cons_append, List.nil_append, List.append_assoc]
  rfl

end Block

end StackCalc

------------------------------------------------------------
-- The Tokens
------------------------------------------------------------

namespace StackCalc

namespace Token

/- The tokens of a level are words. -/
theorem isWord_factorialTokens
    (n : Nat) :
    ∀ t ∈ Block.factorialTokens n, IsWord t ∧ t ≠ [] := by
  have hNumber :
      IsWord (Decimal.intText n) ∧ Decimal.intText n ≠ [] := by
    rcases Literal.exists_intText_eq_cons n with
      ⟨c, r, hCons, -⟩
    refine ⟨(Value.isCompact_intText n).isWord, ?_⟩
    rw [hCons]
    exact List.cons_ne_nil c r
  have hFixed :
      ∀ t ∈ [ "1".toList, BinaryOp.subtract.name,
          '\'' :: Block.factorial, '\'' :: Block.factorialEnd,
          BinaryOp.greater.name, Operator.conditional.name,
          UnaryOp.evaluate.name, BinaryOp.multiply.name ],
        IsWord t ∧ t ≠ [] := by
    decide
  simp only [List.forall_mem_cons] at hFixed
  rcases hFixed with
    ⟨hOne, hMinus, hSelf, hEnd, hGreater, hChoose, hEval,
      hTimes, hNone⟩
  simp only [Block.factorialTokens, Block.factorialLayout,
    List.cons_append, List.nil_append, List.forall_mem_cons]
  exact ⟨hNumber, hNumber, hOne, hMinus, hSelf, hEnd, hNumber,
    hOne, hGreater, hChoose, hEval, hTimes, hNone⟩

end Token

namespace Run

variable {step : Text → Stack → Outcome}

/- A token that succeeds leaves its stack to the others. -/
theorem tokens_cons_of_eq_ok
    {t : Text}
    {s s' : Stack}
    (h : step t s = .ok s')
    (ts : List Text) :
    tokens step (t :: ts) s = tokens step ts s' := by
  rw [tokens, h]

/- Tokens that succeed leave their stack to the others. -/
theorem tokens_append_of_eq_ok
    {ts : List Text}
    {s s' : Stack}
    (h : tokens step ts s = .ok s')
    (us : List Text) :
    tokens step (ts ++ us) s = tokens step us s' := by
  induction ts generalizing s with
  | nil =>
      rw [List.nil_append, Except.ok.inj h]
  | cons t ts ih =>
      cases hFirst : step t s with
      | error f =>
          rw [tokens, hFirst] at h
          simp at h
      | ok reached =>
          rw [tokens_cons_of_eq_ok hFirst] at h
          rw [List.cons_append, tokens_cons_of_eq_ok hFirst,
            ih h]

/- A written short integer is pushed. -/
theorem dispatch_intText
    {z : Int}
    (h : Decimal.isShort z = true)
    (depth : Nat)
    (s : Stack) :
    dispatch (depth + 1) (Decimal.intText z) s =
      .ok (.integer z :: s) := by
  have hSpelling :=
    Value.dispatch_spelling (.integer h) id depth s
  rwa [Value.spelling_integer h] at hSpelling

/-
  The ten tokens that lay out a level leave the number, the
  number below it, and the block that goes on with it.
-/
theorem tokens_factorialLayout
    {n : Nat}
    (h : Decimal.isShort n = true)
    (depth : Nat) :
    tokens (dispatch (depth + 1)) (Block.factorialLayout n) [] =
      .ok
        [ .deferred
            (if 1 < n then Block.factorial
              else Block.factorialEnd),
          .integer (n - 1), .integer n ] := by
  have hNumber :
      ∀ s, dispatch (depth + 1) (Decimal.intText n) s =
        .ok (.integer n :: s) :=
    dispatch_intText h depth
  have hOne :
      ∀ s, dispatch (depth + 1) "1".toList s =
        .ok (.integer 1 :: s) :=
    dispatch_intText (z := 1)
      (Decimal.isShort_of_fits (by decide)) depth
  have hMinus :
      ∀ (a b : Int) s,
        dispatch (depth + 1) BinaryOp.subtract.name
            (.integer b :: .integer a :: s) =
          .ok (.integer (a - b) :: s) :=
    fun a b s => dispatch_name (.binary .subtract) depth _
  have hGreater :
      ∀ (a b : Int) s,
        dispatch (depth + 1) BinaryOp.greater.name
            (.integer b :: .integer a :: s) =
          .ok (.boolean (decide (compare a b = .gt)) :: s) :=
    fun a b s => dispatch_name (.binary .greater) depth _
  have hChoose :
      ∀ (b : Bool) (v w : Value) s,
        dispatch (depth + 1) Operator.conditional.name
            (.boolean b :: v :: w :: s) =
          .ok ((if b then w else v) :: s) :=
    fun b v w s => dispatch_name .conditional depth _
  have hSelf :
      ∀ s, dispatch (depth + 1) ('\'' :: Block.factorial) s =
        .ok (.deferred Block.factorial :: s) :=
    fun s => dispatch_quote Block.factorial depth s
  have hEnd :
      ∀ s, dispatch (depth + 1) ('\'' :: Block.factorialEnd) s =
        .ok (.deferred Block.factorialEnd :: s) :=
    fun s => dispatch_quote Block.factorialEnd depth s
  simp only [Block.factorialLayout, tokens, hNumber, hOne,
    hMinus, hSelf, hEnd, hGreater, hChoose]
  by_cases hMore : 1 < n
  · have hCompare : compare (n : Int) 1 = .gt := by
      rw [Int.compare_eq_gt]
      omega
    simp [hCompare, hMore]
  · have hCompare : compare (n : Int) 1 ≠ .gt := by
      rw [ne_eq, Int.compare_eq_gt]
      omega
    simp [hCompare, hMore]

end Run

end StackCalc

------------------------------------------------------------
-- The Levels
------------------------------------------------------------

namespace StackCalc

namespace Run

/- The block that ends the recursion replaces by one. -/
theorem dispatch_factorialEnd
    (depth : Nat)
    (v : Value)
    (s : Stack) :
    dispatch (depth + 2) Block.factorialEnd (v :: s) =
      .ok (.integer 1 :: s) := by
  have hFill :
      Block.fill Block.factorialEnd [v] "1".toList =
        .ok "1".toList :=
    Block.fill_append (t := "1".toList) (by decide)
      (by rw [Block.fill])
  have hLine :
      Block.substitute ⟨Block.factorialEnd, 1, "1".toList⟩ [v] =
        .ok "1".toList := by
    simp only [Block.substitute, hFill]
    rfl
  have hRun :
      tokens (dispatch (depth + 1)) (Token.split "1".toList) [] =
        .ok [.integer 1] := by
    refine (tokens_cons_of_eq_ok (t := "1".toList) ?_ []).trans
      rfl
    exact dispatch_intText (z := 1)
      (Decimal.isShort_of_fits (by decide)) depth []
  refine (dispatch_block _ _ _).trans ?_
  exact applyBlock_eq_ok Block.parse_factorialEnd
    (Stack.popMany_append [v] _ s) hLine hRun

/-
  A level multiplies its number by what the block that it
  goes on with gives for the number below.
-/
theorem dispatch_factorial_of_next
    {n : Nat}
    {r : Int}
    {depth : Nat}
    (h : Decimal.isShort n = true)
    (hNext :
      dispatch depth
          (if 1 < n then Block.factorial
            else Block.factorialEnd)
          [.integer (n - 1), .integer n] =
        .ok [.integer r, .integer n])
    (s : Stack) :
    dispatch (depth + 2) Block.factorial (.integer n :: s) =
      .ok (.integer (n * r) :: s) := by
  have hSplit :
      Token.split
          (Text.joinWith [' '] (Block.factorialTokens n)) =
        Block.factorialTokens n :=
    Token.split_words
      (fun t ht => (Token.isWord_factorialTokens n t ht).1)
      (fun t ht => (Token.isWord_factorialTokens n t ht).2)
  have hEval :
      dispatch (depth + 1) UnaryOp.evaluate.name
          [ .deferred
              (if 1 < n then Block.factorial
                else Block.factorialEnd),
            .integer (n - 1), .integer n ] =
        .ok [.integer r, .integer n] :=
    (dispatch_name (.unary .evaluate) depth _).trans hNext
  have hTimes :
      dispatch (depth + 1) BinaryOp.multiply.name
          [.integer r, .integer n] =
        .ok [.integer (n * r)] :=
    dispatch_name (.binary .multiply) depth _
  have hRun :
      tokens (dispatch (depth + 1))
          (Token.split
            (Text.joinWith [' '] (Block.factorialTokens n)))
          [] =
        .ok [.integer (n * r)] := by
    rw [hSplit, Block.factorialTokens,
      tokens_append_of_eq_ok (tokens_factorialLayout h depth),
      tokens_cons_of_eq_ok hEval, tokens_cons_of_eq_ok hTimes]
    rfl
  refine (dispatch_block _ _ _).trans ?_
  exact applyBlock_eq_ok Block.parse_factorial
    (Stack.popMany_append [.integer n] _ s)
    (Block.substitute_factorial h) hRun

/-
  The block replaces every positive number that can be
  written by its factorial, which need not be written. The
  depth that it takes is twice the number and two more.
-/
theorem dispatch_factorial
    {n depth : Nat}
    (hPos : 1 ≤ n)
    (hShort : n < Nat.pow 10 Decimal.maxDigits)
    (hDepth : 2 * n + 2 ≤ depth)
    (s : Stack) :
    dispatch depth Block.factorial (.integer n :: s) =
      .ok (.integer n.factorial :: s) := by
  have hEnough : depth = depth - 2 + 2 := by omega
  have hNumber : Decimal.isShort n = true :=
    Decimal.isShort_natCast_iff.2 hShort
  induction n, hPos using Nat.le_induction
      generalizing depth s with
  | base =>
      have hOne : depth - 2 = depth - 4 + 2 := by omega
      have hNext := dispatch_factorialEnd (depth - 4)
      rw [← hOne] at hNext
      rw [hEnough]
      exact dispatch_factorial_of_next hNumber (hNext _ _) s
  | succ n hPos ih =>
      have hNext :
          dispatch (depth - 2)
              (if 1 < n + 1 then Block.factorial
                else Block.factorialEnd)
              [ .integer (((n + 1 : Nat) : Int) - 1),
                .integer ((n + 1 : Nat) : Int) ] =
            .ok
              [ .integer n.factorial,
                .integer ((n + 1 : Nat) : Int) ] := by
        have hBelow : ((n + 1 : Nat) : Int) - 1 = n := by omega
        rw [if_pos (by omega), hBelow]
        exact ih (by omega) (by omega) _ (by omega)
          (Decimal.isShort_of_lt (Nat.lt_succ_self n) hNumber)
      have hLevel := dispatch_factorial_of_next hNumber hNext s
      rw [hEnough, hLevel, Nat.factorial_succ, Int.natCast_mul]

/- The factorial of 25 is beyond sixty-four bits. -/
theorem dispatch_factorial_twentyFive :
    1 ≤ 25 ∧ 25 < Nat.pow 10 Decimal.maxDigits ∧
      2 * 25 + 2 ≤ maxDepth ∧
      dispatch maxDepth Block.factorial
          [.integer 25, .boolean true] =
        .ok
          [ .integer 15511210043330985984000000,
            .boolean true ] := by
  have hShort : 25 < Nat.pow 10 Decimal.maxDigits :=
    Decimal.isShort_natCast_iff.1
      (Decimal.isShort_of_fits (by decide))
  have hRun :=
    dispatch_factorial (n := 25) (by decide) hShort
      (by decide : 2 * 25 + 2 ≤ maxDepth) [.boolean true]
  exact ⟨by decide, hShort, by decide, hRun⟩

end Run

end StackCalc
