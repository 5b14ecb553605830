import StackCalc.Proofs.InnerRuns
import StackCalc.Proofs.ReadValues
import StackCalc.Proofs.Spelling

/-
  Deferring a token and evaluating it is carrying it out.

  An operator or a block is deferred as its own text, which
  EVAL passes on. A literal is pushed at once, and EVAL
  carries out the text that is written for it. Unless there
  are doubles in it that text spells the value again.

  Main declarations:
    * `Value.IsFloatFree`
    * `Value.IsWritable`
    * `Literal.isWritable_of_parse`
    * `Run.tokens_defer_evaluate`
-/

------------------------------------------------------------
-- Literals That Are Written Again
------------------------------------------------------------

namespace StackCalc

namespace Value

/- No double, and no array of doubles. -/
def IsFloatFree : Value → Prop
  | float _ => False
  | vector (.floats _) => False
  | matrix (.floats _) => False
  | _ => True

/-
  A value whose text is carried out by pushing the value
  again.
-/
def IsWritable (v : Value) : Prop :=
  ∃ t, v.render = some t ∧
    ∀ depth s, Run.dispatch (depth + 1) t s = .ok (v :: s)

theorem isWritable_of_isPlain
    {v : Value}
    (hPlain : v.IsPlain)
    (hRows : ¬ v.IsRowless) :
    v.IsWritable :=
  ⟨v.spelling, render_eq_spelling hPlain,
    dispatch_spelling hPlain hRows⟩

/- A text in quotes is pushed as it is. -/
theorem isWritable_string
    {t : Text}
    (h : Text.isQuoted t = true) :
    (string t).IsWritable := by
  refine ⟨t, rfl, ?_⟩
  intro depth s
  have hQuote : '"' ∈ t := by
    rw [Text.eq_of_isWrapped h]
    exact List.mem_cons_self
  have hHead : t.head? = some '"' := by
    rw [Text.eq_of_isWrapped h]
    rfl
  have hName : Operator.ofName? t = none :=
    Operator.ofName?_eq_none (by decide) hQuote
  rw [Run.dispatch_literal hName (by simp [hHead])
    (by simp [hHead]), Run.literal, Literal.parse, if_pos h]

end Value

namespace Literal

open Grammar

/- A literal without doubles is written again. -/
theorem isWritable_of_parse
    {t : Text}
    {v : Value}
    (h : parse t = .ok v)
    (hFree : v.IsFloatFree) :
    v.IsWritable := by
  have hWellFormed := wellFormed_of_parse h
  rcases spells_of_parse h with
    ⟨hQuoted, rfl⟩ | ⟨front, l, back, -, -, -, hSpells⟩
  · exact Value.isWritable_string hQuoted
  · cases hSpells with
    | scalar hScalar =>
        cases hScalar with
        | @number _ n hNumber =>
            cases n with
            | integer z =>
                exact Value.isWritable_of_isPlain
                  (.integer (isShort_of_parse h)) id
            | float x =>
                exact hFree.elim
        | trueWord =>
            exact Value.isWritable_of_isPlain (.boolean _) id
        | falseWord =>
            exact Value.isWritable_of_isPlain (.boolean _) id
        | string hPlain =>
            exact Value.isWritable_string
              (Text.isQuoted_inQuotes _)
    | @vector w hRow =>
        cases w with
        | ints zs =>
            exact Value.isWritable_of_isPlain
              (.vector hWellFormed) id
        | floats xs =>
            exact hFree.elim
    | matrix hRows hStacks =>
        cases hStacks with
        | ints hSome hWidth =>
            refine Value.isWritable_of_isPlain
              (.matrix hWidth hWellFormed.stored) ?_
            intro hRowless
            exact hSome (List.eq_nil_of_length_eq_zero hRowless)
        | floats hFloats hWidth =>
            exact hFree.elim

end Literal

end StackCalc

------------------------------------------------------------
-- Deferring And Evaluating
------------------------------------------------------------

namespace StackCalc

namespace Run

theorem tokens_singleton
    (step : Text → Stack → Outcome)
    (t : Text)
    (s : Stack) :
    tokens step [t] s = step t s := by
  rw [tokens]
  cases step t s with
  | _ =>
      rfl

/- EVAL carries out the text of the value on top. -/
theorem dispatch_evaluate
    {v : Value}
    {t : Text}
    (h : v.render = some t)
    (depth : Nat)
    (s : Stack) :
    dispatch (depth + 1) UnaryOp.evaluate.name (v :: s) =
      dispatch depth t s := by
  refine (dispatch_name (.unary .evaluate) depth _).trans ?_
  simp only [perform, unary, evaluate, h]

/- What is deferred is carried out by EVAL. -/
theorem evaluate_deferred
    {t : Text}
    (h : Operator.isName t = true ∨ t.head? = some '{')
    (depth : Nat)
    (s : Stack) :
    tokens (dispatch (depth + 2))
        ['\'' :: t, UnaryOp.evaluate.name] s =
      dispatch (depth + 1) t s := by
  have hQuote : quote t s = .ok (.deferred t :: s) := by
    rw [quote, if_pos (by simpa using h)]
  rw [tokens, dispatch_quote, hQuote]
  exact (tokens_singleton _ _ _).trans
    (dispatch_evaluate rfl _ s)

/-
  A literal is pushed either way. One that is not read
  fails either way, before EVAL.
-/
theorem evaluate_literal
    {t : Text}
    (h : ¬(Operator.isName t = true ∨ t.head? = some '{'))
    (hStart : t.head? ≠ some '\'')
    (hFree :
      ∀ v, Literal.parse t = .ok v → v.IsFloatFree)
    (depth : Nat)
    (s : Stack) :
    tokens (dispatch (depth + 2))
        ['\'' :: t, UnaryOp.evaluate.name] s =
      dispatch (depth + 1) t s := by
  have hQuote : quote t s = literal t s := by
    rw [quote, if_neg (by simpa using h)]
  rcases not_or.1 h with ⟨hName, hBrace⟩
  have hNone : Operator.ofName? t = none := by
    simpa [Operator.isName] using hName
  rw [dispatch_literal hNone hStart hBrace, tokens,
    dispatch_quote, hQuote, literal]
  cases hParse : Literal.parse t with
  | error e =>
      rfl
  | ok v =>
      -- the literal may be written unlike it was read
      rcases Literal.isWritable_of_parse hParse
          (hFree v hParse) with ⟨u, hText, hPush⟩
      simp only [tokens_singleton]
      rw [dispatch_evaluate hText, hPush]

/-
  A token with an apostrophe before it and EVAL after it
  has the outcome of the token itself, one level deeper.
  The token has no apostrophe of its own, and it is no
  literal with doubles. Where the token does not run out of
  depth, the outcomes are the same at every greater depth.
-/
theorem tokens_defer_evaluate
    {t : Text}
    (hStart : t.head? ≠ some '\'')
    (hFree :
      ∀ v, Literal.parse t = .ok v → v.IsFloatFree)
    (s : Stack) :
    (∀ depth,
      tokens (dispatch (depth + 2))
          ['\'' :: t, UnaryOp.evaluate.name] s =
        dispatch (depth + 1) t s) ∧
      ∀ depth, (dispatch depth t s).IsFinished →
        ∀ more, depth < more →
          tokens (dispatch more)
              ['\'' :: t, UnaryOp.evaluate.name] s =
            dispatch more t s := by
  have hCancel (depth : Nat) :
      tokens (dispatch (depth + 2))
          ['\'' :: t, UnaryOp.evaluate.name] s =
        dispatch (depth + 1) t s := by
    by_cases hDefer :
        Operator.isName t = true ∨ t.head? = some '{'
    · exact evaluate_deferred hDefer depth s
    · exact evaluate_literal hDefer hStart hFree depth s
  refine ⟨hCancel, ?_⟩
  intro depth hFinished more hLt
  cases depth with
  | zero =>
      exact absurd rfl hFinished
  | succ depth =>
      rcases Nat.exists_eq_add_of_lt hLt with ⟨k, rfl⟩
      have hLess : depth + 1 ≤ depth + k + 1 := by
        omega
      have hMore : depth + 1 ≤ depth + 1 + k + 1 := by
        omega
      calc
        _ = dispatch (depth + k + 1) t s := by
          rw [show depth + 1 + k + 1 = depth + k + 2 by omega]
          exact hCancel (depth + k)
        _ = dispatch (depth + 1) t s :=
          dispatch_of_le hFinished hLess
        _ = dispatch (depth + 1 + k + 1) t s :=
          (dispatch_of_le hFinished hMore).symm

/- A numeral that is not written as the number it spells. -/
theorem tokens_defer_evaluate_numeral :
    "-1_0".toList.head? ≠ some '\'' ∧
      (∀ v, Literal.parse "-1_0".toList = .ok v →
        v.IsFloatFree) ∧
      (dispatch 1 "-1_0".toList []).IsFinished ∧
      tokens (dispatch 2)
          ["'-1_0".toList, UnaryOp.evaluate.name] [] =
        dispatch 2 "-1_0".toList [] ∧
      dispatch 2 "-1_0".toList [] =
        .ok [.integer (-10)] := by
  have hStart : "-1_0".toList.head? ≠ some '\'' := by
    decide
  have hParse :
      Literal.parse "-1_0".toList = .ok (.integer (-10)) :=
    rfl
  have hFree :
      ∀ v, Literal.parse "-1_0".toList = .ok v →
        v.IsFloatFree := by
    intro v hv
    rw [hParse] at hv
    rw [← Except.ok.inj hv]
    trivial
  have hPushed (depth : Nat) :
      dispatch (depth + 1) "-1_0".toList [] =
        .ok [.integer (-10)] := by
    rw [dispatch_literal (by decide) (by decide) (by decide),
      literal, hParse]
  have hFinished :
      (dispatch 1 "-1_0".toList []).IsFinished := by
    rw [hPushed 0]
    trivial
  exact ⟨hStart, hFree, hFinished,
    (tokens_defer_evaluate hStart hFree []).2 1 hFinished 2
      (by decide), hPushed 1⟩

end Run

end StackCalc
