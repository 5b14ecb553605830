import StackCalc.Proofs.Alphabet
import StackCalc.Proofs.Locality
import StackCalc.Run.Trace

/-
  Programs without blocks terminate.

  Where no text has an opening brace, EVAL is all that one
  token can carry out another for, and it has taken a value
  off the stack before. So a token needs no more depth than
  there are values. It leaves at most one value more than
  it found, which bounds the depth of a whole program by
  its length. That no text gets a brace is a matter of the
  alphabet: the calculator writes none by itself.

  Main declarations:
    * `Outcome.AtMost`
    * `Run.dispatch_atMost`
    * `Run.dispatch_isFinished`
    * `Run.tokens_isFinished`
    * `Run.Moment.OnlyEvaluates`
    * `Run.finishes_of_braceless`
-/

------------------------------------------------------------
-- Growth Of The Stack
------------------------------------------------------------

namespace StackCalc

/- The stack that is left, if any, is not too long. -/
def Outcome.AtMost
    (n : Nat)
    (r : Outcome) : Prop :=
  ∀ s, r = .ok s → s.length ≤ n

namespace Outcome

@[simp] theorem atMost_ok_iff
    {n : Nat}
    {s : Stack} :
    AtMost n (.ok s) ↔ s.length ≤ n := by
  simp [AtMost]

@[simp] theorem atMost_error
    (n : Nat)
    (f : Failure) :
    AtMost n (.error f) := by
  simp [AtMost]

@[simp] theorem atMost_failing
    (n : Nat)
    (f : Fault)
    (s : Stack) :
    AtMost n (Run.failing f s) :=
  atMost_error n _

theorem AtMost.mono
    {m n : Nat}
    {r : Outcome}
    (h : AtMost m r)
    (hLe : m ≤ n) :
    AtMost n r :=
  fun s hs => (h s hs).trans hLe

end Outcome

namespace Stack

/- Moving a window keeps the number of values. -/
theorem length_rotateTop
    (size : Nat)
    (towardTop : Bool)
    (s : Stack) :
    (rotateTop size towardTop s).length = s.length := by
  unfold rotateTop List.rotateRight List.rotateLeft
  grind

end Stack

namespace Run

open Outcome

variable {step : Text → Stack → Outcome}

theorem unary_atMost
    (op : UnaryOp)
    (v : Value)
    {rest : Stack}
    (hEvaluate :
      ∀ t, v.render = some t →
        AtMost (rest.length + 1) (step t rest)) :
    AtMost (rest.length + 1) (unary step op v rest) := by
  unfold unary
  split
  case h_7 =>
    unfold evaluate
    split
    · exact hEvaluate _ ‹_›
    · exact atMost_error _ _
  all_goals simp

theorem binary_atMost
    (op : BinaryOp)
    (l r : Value)
    (rest : Stack) :
    AtMost (rest.length + 1) (binary op l r rest) := by
  unfold binary
  split
  · simp
  · exact atMost_failing _ _ _

theorem roll_atMost
    (op : StackOp)
    (towardTop : Bool)
    (size : Value)
    (rest : Stack) :
    AtMost rest.length (roll op towardTop size rest) := by
  unfold roll
  split
  · split
    · rename_i s hRotate
      rw [atMost_ok_iff,
        Stack.eq_rotateTop_of_rotateWindow hRotate,
        Stack.length_rotateTop]
    · exact atMost_error _ _
  · exact atMost_failing _ _ _

theorem choose_atMost
    (condition onFalse onTrue : Value)
    (rest : Stack) :
    AtMost (rest.length + 1)
      (choose condition onFalse onTrue rest) := by
  unfold choose
  split
  · simp
  · exact atMost_failing _ _ _

/-
  No operator leaves more than one value more than there
  were, if the text that EVAL carries out does not.
-/
theorem perform_atMost
    (op : Operator)
    {s : Stack}
    (hEvaluate :
      ∀ v t rest, s = v :: rest → v.render = some t →
        AtMost (rest.length + 1) (step t rest)) :
    AtMost (s.length + 1) (perform step op s) := by
  unfold perform
  split
  · rename_i op v rest
    exact (unary_atMost op v (hEvaluate v · rest rfl)).mono
      (by simp)
  · exact (binary_atMost _ _ _ _).mono (by simp)
  · simp
    omega
  · simp
  · simp
  · simp
  · exact (roll_atMost _ _ _ _).mono (by simp)
  · exact (roll_atMost _ _ _ _).mono (by simp)
  · exact (choose_atMost _ _ _ _).mono (by simp)
  · simp

theorem literal_atMost
    (t : Text)
    (s : Stack) :
    AtMost (s.length + 1) (literal t s) := by
  unfold literal
  split
  · simp
  · exact atMost_error _ _

theorem quote_atMost
    (t : Text)
    (s : Stack) :
    AtMost (s.length + 1) (quote t s) := by
  unfold quote
  split
  · simp
  · exact literal_atMost t s

end Run

end StackCalc

------------------------------------------------------------
-- Tokens Without Braces
------------------------------------------------------------

namespace StackCalc

open Text Outcome

/- The calculator writes no opening brace by itself. -/
theorem Text.ne_brace_of_isWritten
    (c : Char)
    (h : IsWritten c) :
    c ≠ '{' := by
  rintro rfl
  revert h
  decide

namespace Run

/-
  Values that are written without opening braces, and texts
  without them, stay so.
-/
theorem invariant_braceless :
    Invariant (Value.WrittenOver (· ≠ '{'))
      (Over (· ≠ '{')) :=
  invariant_writtenOver ne_brace_of_isWritten

/- A text without an opening brace runs no block. -/
theorem not_runs_of_braceless
    {t line : Text}
    {s rest : Stack}
    (ht : Over (· ≠ '{') t) :
    ¬ Block.Runs t s line rest := by
  intro hRuns
  cases hRuns with
  | line hParse hArgs hLine =>
      rcases Block.exists_eq_cons_of_parse hParse with
        ⟨source, rfl⟩
      exact (over_cons_iff.1 ht).1 rfl

/-
  A token leaves at most one value more than it found. The
  depth carries the induction, through EVAL.
-/
theorem dispatch_atMost
    {depth : Nat}
    {t : Text}
    {s : Stack}
    (ht : Over (· ≠ '{') t)
    (hs : ∀ v ∈ s, v.WrittenOver (· ≠ '{')) :
    AtMost (s.length + 1) (dispatch depth t s) := by
  induction depth generalizing t s with
  | zero =>
      exact atMost_error _ _
  | succ depth ih =>
      unfold dispatch
      split
      · apply perform_atMost
        rintro v u rest rfl hText
        rw [List.forall_mem_cons] at hs
        exact ih (hs.1 u hText) hs.2
      · split
        · exact quote_atMost _ _
        · exact absurd rfl (over_cons_iff.1 ht).1
        · exact literal_atMost _ _

/- A token needs no more depth than there are values. -/
theorem dispatch_isFinished
    {depth : Nat}
    {t : Text}
    {s : Stack}
    (ht : Over (· ≠ '{') t)
    (hs : ∀ v ∈ s, v.WrittenOver (· ≠ '{'))
    (hDepth : s.length < depth) :
    (dispatch depth t s).IsFinished := by
  induction depth generalizing t s with
  | zero =>
      omega
  | succ depth ih =>
      rw [dispatch_succ]
      rcases dispatchBy_cases t s with
        ⟨r, hFinished, hDirect⟩ |
          ⟨v, u, rest, -, rfl, hText, hStep⟩ |
          ⟨line, rest, hRuns, -⟩
      · rw [← hDirect (dispatch depth)] at hFinished
        exact hFinished
      · rw [List.forall_mem_cons] at hs
        rw [List.length_cons] at hDepth
        rw [hStep]
        exact ih (hs.1 u hText) hs.2 (by omega)
      · exact absurd hRuns (not_runs_of_braceless ht)

/-
  Tokens need no more depth than there are tokens and
  values: each one adds at most one value.
-/
theorem tokens_isFinished
    {depth : Nat}
    {ts : List Text}
    {s : Stack}
    (hts : ∀ t ∈ ts, Over (· ≠ '{') t)
    (hs : ∀ v ∈ s, v.WrittenOver (· ≠ '{'))
    (hDepth : ts.length + s.length ≤ depth) :
    (tokens (dispatch depth) ts s).IsFinished := by
  induction ts generalizing s with
  | nil =>
      trivial
  | cons t ts ih =>
      rw [List.forall_mem_cons] at hts
      rw [List.length_cons] at hDepth
      have hFirst : (dispatch depth t s).IsFinished :=
        dispatch_isFinished hts.1 hs (by omega)
      rw [tokens]
      cases hOk : dispatch depth t s with
      | error f =>
          rw [hOk] at hFirst
          exact hFirst
      | ok s' =>
          have hValues :=
            invariant_braceless.dispatch_keeps depth hts.1 hs
              s' hOk
          -- one token less makes up for one value more
          have hLength := dispatch_atMost hts.1 hs s' hOk
          exact ih hts.2 hValues (by omega)

end Run

end StackCalc

------------------------------------------------------------
-- Evaluations
------------------------------------------------------------

namespace StackCalc

open Text

namespace Run

/- Whatever a token leads to is an evaluation. -/
theorem trace_of_braceless
    {depth : Nat}
    {t : Text}
    {s : Stack}
    (ht : Over (· ≠ '{') t)
    (hs : ∀ v ∈ s, v.WrittenOver (· ≠ '{')) :
    (Trace.dispatch depth t s).length ≤ s.length ∧
      ∀ e ∈ Trace.dispatch depth t s,
        ∃ u, e = .evaluated u := by
  induction depth generalizing t s with
  | zero =>
      simp [Trace.dispatch]
  | succ depth ih =>
      unfold Trace.dispatch
      split
      · unfold Trace.evaluate
        split
        · simp
        · split
          · rename_i v rest u hText
            rw [List.forall_mem_cons] at hs
            have hRest := ih (hs.1 u hText) hs.2
            refine ⟨?_, ?_⟩
            · simpa using hRest.1
            · exact List.forall_mem_cons.2 ⟨⟨u, rfl⟩, hRest.2⟩
          · simp
      · simp
      · split
        · exact absurd rfl (over_cons_iff.1 ht).1
        · simp

/-
  A moment at which only EVAL leads into another run. Its
  values are written without opening braces, the run inside
  carries out one text on a shorter stack, and no token
  leads to more evaluations than there are values.
-/
structure Moment.OnlyEvaluates (m : Moment) : Prop where
  braceless :
    ∀ v ∈ m.stack, ∀ t, v.render = some t → '{' ∉ t
  shorter :
    ∀ m', Follows m m' → m'.depth < m.depth →
      m.tokens.head? = some UnaryOp.evaluate.name ∧
        m'.tokens.length = 1 ∧
        m'.stack.length < m.stack.length
  events :
    ∀ t, m.tokens.head? = some t →
      (Trace.dispatch m.depth t m.stack).length ≤
          m.stack.length ∧
        ∀ e ∈ Trace.dispatch m.depth t m.stack,
          ∃ u, e = .evaluated u

theorem Moment.onlyEvaluates_of_has
    {m : Moment}
    (h : m.Has (Value.WrittenOver (· ≠ '{'))
      (Over (· ≠ '{'))) :
    m.OnlyEvaluates where
  braceless := by
    intro v hv t hText hBrace
    exact h.values v hv t hText '{' hBrace rfl
  shorter := by
    intro m' hFollows hDepth
    cases hFollows with
    | next hOk =>
        simp at hDepth
    | fail hError =>
        simp at hDepth
    | evaluate hText =>
        simp
    | block hRuns =>
        exact absurd hRuns
          (not_runs_of_braceless (h.texts _ (by simp)))
  events := by
    intro t hHead
    exact trace_of_braceless
      (h.texts t (List.mem_of_mem_head? hHead)) h.values

/-
  A program without opening braces comes to an end: from
  the depth that is the number of its tokens on it has one
  and the same outcome. At every moment of its run, however
  deep it may go, only EVAL leads into another run.
-/
theorem finishes_of_braceless
    {lines : List Text}
    (h : ∀ line ∈ lines, '{' ∉ line) :
    (∃ r : Outcome, r.IsFinished ∧
      ∀ depth, (tokensOf lines).length ≤ depth →
        tokens (dispatch depth) (tokensOf lines) [] = r) ∧
      ∀ depth m, Reaches ⟨depth, tokensOf lines, []⟩ m →
        m.OnlyEvaluates := by
  have hTexts : ∀ t ∈ tokensOf lines, Over (· ≠ '{') t := by
    apply over_of_mem_tokensOf
    intro line hLine c hc hBrace
    exact h line hLine (hBrace ▸ hc)
  constructor
  · have hFinished :
        (tokens (dispatch (tokensOf lines).length)
          (tokensOf lines) []).IsFinished :=
      tokens_isFinished hTexts (by simp) (by simp)
    refine ⟨_, hFinished, ?_⟩
    intro depth hDepth
    exact tokens_dispatch_of_le hFinished hDepth
  · intro depth m hReaches
    exact Moment.onlyEvaluates_of_has
      (invariant_braceless.of_reaches hReaches
        ⟨hTexts, by simp⟩)

/- EVAL evaluates itself, on the value below. -/
theorem finishes_of_braceless_nested :
    (∀ line ∈ ["1 'EVAL EVAL".toList], '{' ∉ line) ∧
      (∃ r : Outcome, r.IsFinished ∧
        ∀ depth, 3 ≤ depth →
          tokens (dispatch depth)
            (tokensOf ["1 'EVAL EVAL".toList]) [] = r) ∧
      Reaches ⟨3, tokensOf ["1 'EVAL EVAL".toList], []⟩
        ⟨2, [UnaryOp.evaluate.name], [.integer 1]⟩ ∧
      Moment.OnlyEvaluates
        ⟨2, [UnaryOp.evaluate.name], [.integer 1]⟩ := by
  have hBraceless :
      ∀ line ∈ ["1 'EVAL EVAL".toList], '{' ∉ line := by
    decide
  have hTokens :
      tokensOf ["1 'EVAL EVAL".toList] =
        ["1".toList, "'EVAL".toList, "EVAL".toList] := by
    decide
  have hReaches :
      Reaches ⟨3, tokensOf ["1 'EVAL EVAL".toList], []⟩
        ⟨2, [UnaryOp.evaluate.name], [.integer 1]⟩ := by
    rw [hTokens]
    refine .head (.next rfl) (.head (.next rfl) (.single ?_))
    exact .evaluate rfl
  have hFinishes := finishes_of_braceless hBraceless
  refine ⟨hBraceless, ?_, hReaches,
    hFinishes.2 3 _ hReaches⟩
  rw [hTokens] at hFinishes ⊢
  exact hFinishes.1

end Run

end StackCalc
