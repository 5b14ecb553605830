import StackCalc.Proofs.BlockArguments

/-
  What a token does depends on the values it reaches alone.

  A token that finds as many values as it needs does the
  same on a stack with further values below, and leaves
  these where they are. Only complaints about the depth of
  the stack tell how deep it is. A block reaches nothing
  below its arguments, whatever its line does.

  Main declarations:
    * `Run.Saturated`
    * `Outcome.above`
    * `Outcome.IsLocal`
    * `Run.perform_append`
    * `Run.applyBlock_append`
    * `Run.dispatch_append_of_isLocal`
    * `Run.dispatch_append`
-/

------------------------------------------------------------
-- Outcomes Above Other Values
------------------------------------------------------------

namespace StackCalc

namespace Outcome

/- The same outcome with further values below its stack. -/
def above
    (below : Stack) : Outcome → Outcome
  | .ok s => .ok (s ++ below)
  | .error f => .error ⟨f.cause, f.stack ++ below⟩

/-
  Whether an outcome says nothing about the depth of the
  stack: a result, or a fault other than a corruption.
-/
def IsLocal : Outcome → Prop
  | .ok _ => True
  | .error f => ∃ g : Fault, f.cause = .fault g ∧
      g.kind ≠ .corruption

/- No complaint of a stack is local. -/
theorem not_isLocal_complaint
    (token : Text)
    (cause : StackFault)
    (n : Int)
    (s : Stack) :
    ¬ IsLocal (.error ⟨Stack.complaint token cause n, s⟩) := by
  rintro ⟨g, hCause, hKind⟩
  simp only [Stack.complaint] at hCause
  split at hCause
  · rw [← Stop.fault.inj hCause] at hKind
    exact hKind rfl
  · simp at hCause

end Outcome

end StackCalc

------------------------------------------------------------
-- Reaching Into A Stack
------------------------------------------------------------

namespace StackCalc

namespace Stack

/- Values that can be popped stay the same above others. -/
theorem popMany_append_of_eq_ok
    {count : Int}
    {token : Text}
    {s rest : Stack}
    {args : List Value}
    (h : popMany count token s = .ok (args, rest))
    (below : Stack) :
    popMany count token (s ++ below) =
      .ok (args, rest ++ below) := by
  unfold popMany require at h
  split at h
  · simp at h
  case isFalse hCount =>
    by_cases hEnough : count ≤ s.length
    · have hTake : count.toNat ≤ s.length := by omega
      have hMore : count ≤ (s ++ below).length := by
        rw [List.length_append]
        omega
      simp only [if_pos hEnough, Except.ok.injEq,
        Prod.mk.injEq] at h
      rcases h with ⟨rfl, rfl⟩
      simp only [popMany, require, if_neg hCount, if_pos hMore,
        List.take_append_of_le_length hTake,
        List.drop_append_of_le_length hTake]
    · simp [if_neg hEnough] at h

/- A stack that holds too few values complains. -/
theorem popMany_eq_error
    {count : Int}
    {token : Text}
    {s : Stack}
    {e : Stop}
    (h : popMany count token s = .error e) :
    ∃ cause n, e = complaint token cause n := by
  unfold popMany require at h
  split at h
  · exact ⟨_, _, (Except.error.inj h).symm⟩
  · split at h
    · rename_i e' hRequire
      split at hRequire
      · simp at hRequire
      · rw [← Except.error.inj h, ← Except.error.inj hRequire]
        exact ⟨_, _, rfl⟩
    · simp at h

/- A window that the stack holds moves above others. -/
theorem rotateTop_append
    {size : Nat}
    {s : Stack}
    (h : size ≤ s.length)
    (towardTop : Bool)
    (below : Stack) :
    rotateTop size towardTop (s ++ below) =
      rotateTop size towardTop s ++ below := by
  simp only [rotateTop, List.take_append_of_le_length h,
    List.drop_append_of_le_length h, List.append_assoc]

end Stack

end StackCalc

------------------------------------------------------------
-- Operators
------------------------------------------------------------

namespace StackCalc

namespace Run

variable {step : Text → Stack → Outcome}

/- Operators on the top value leave those below alone. -/
theorem unary_append
    {op : UnaryOp}
    (hOp : op ≠ .evaluate)
    (v : Value)
    (rest below : Stack) :
    unary step op v (rest ++ below) =
      (unary step op v rest).above below := by
  unfold unary
  split
  case h_7 => exact absurd rfl hOp
  all_goals rfl

theorem binary_append
    (op : BinaryOp)
    (l r : Value)
    (rest below : Stack) :
    binary op l r (rest ++ below) =
      (binary op l r rest).above below := by
  unfold binary
  split
  · rfl
  · rfl

/- A window is local unless the stack is too short for it. -/
theorem roll_append
    {op : StackOp}
    {towardTop : Bool}
    {size : Value}
    {rest : Stack}
    (hLocal : (roll op towardTop size rest).IsLocal)
    (below : Stack) :
    roll op towardTop size (rest ++ below) =
      (roll op towardTop size rest).above below := by
  unfold roll at hLocal ⊢
  cases size with
  | integer n =>
      unfold Stack.rotateWindow Stack.require at hLocal ⊢
      by_cases hSmall : n < 1
      · simp only [if_pos hSmall] at hLocal
        exact (Outcome.not_isLocal_complaint _ _ _ _
          hLocal).elim
      · by_cases hEnough : n ≤ rest.length
        · have hSize : n.toNat ≤ rest.length := by omega
          have hMore : n ≤ (rest ++ below).length := by
            rw [List.length_append]
            omega
          simp only [if_neg hSmall, if_pos hEnough,
            if_pos hMore, Outcome.above,
            Stack.rotateTop_append hSize]
        · simp only [if_neg hSmall, if_neg hEnough] at hLocal
          exact (Outcome.not_isLocal_complaint _ _ _ _
            hLocal).elim
  | _ =>
      rfl

theorem choose_append
    (condition onFalse onTrue : Value)
    (rest below : Stack) :
    choose condition onFalse onTrue (rest ++ below) =
      (choose condition onFalse onTrue rest).above below := by
  unfold choose
  split
  · rfl
  · rfl

/- Rearranging operators leave the values below alone. -/
theorem perform_stack_append
    {op : StackOp}
    {s : Stack}
    (hArity : op.arity ≤ s.length)
    (hLocal : (perform step (.stack op) s).IsLocal)
    (below : Stack) :
    perform step (.stack op) (s ++ below) =
      (perform step (.stack op) s).above below := by
  cases op with
  | drop =>
      match s, hArity with
      | _ :: _, _ => rfl
  | duplicate =>
      match s, hArity with
      | _ :: _, _ => rfl
  | swap =>
      match s, hArity with
      | _ :: _ :: _, _ => rfl
  | rotate =>
      match s, hArity with
      | _ :: _ :: _ :: _, _ => rfl
  | roll =>
      match s, hArity with
      | _ :: _ :: _, _ => exact roll_append hLocal below
  | rollDown =>
      match s, hArity with
      | _ :: _ :: _, _ => exact roll_append hLocal below

/-
  An operator that finds its values does the same above
  others. EVAL is left out: what it carries out may need
  more.
-/
theorem perform_append
    {op : Operator}
    {s : Stack}
    (hOp : op ≠ .unary .evaluate)
    (hArity : op.arity ≤ s.length)
    (hLocal : (perform step op s).IsLocal)
    (below : Stack) :
    perform step op (s ++ below) =
      (perform step op s).above below := by
  cases op with
  | unary op =>
      have hUnary : op ≠ .evaluate := by
        rintro rfl
        exact hOp rfl
      match s, hArity with
      | v :: rest, _ => exact unary_append hUnary v rest below
  | binary op =>
      match s, hArity with
      | r :: l :: rest, _ => exact binary_append op l r rest below
  | stack op =>
      exact perform_stack_append hArity hLocal below
  | conditional =>
      match s, hArity with
      | c :: f :: t :: rest, _ =>
          exact choose_append c f t rest below

end Run

end StackCalc

------------------------------------------------------------
-- Blocks And Literals
------------------------------------------------------------

namespace StackCalc

namespace Block

/- Whatever is read as a block starts with a brace. -/
theorem exists_eq_cons_of_parse
    {source : Text}
    {b : Block}
    (h : parse source = .ok b) :
    ∃ rest, source = '{' :: rest := by
  unfold parse at h
  split at h
  case isTrue hWrapped =>
    exact ⟨_, Text.eq_of_isWrapped hWrapped⟩
  case isFalse =>
    simp at h

end Block

namespace Run

variable {step : Text → Stack → Outcome}

/-
  A block that finds its arguments does the same above any
  other values: its line runs on a stack of its own.
-/
theorem applyBlock_append_of_popMany
    {source : Text}
    {s rest : Stack}
    {b : Block}
    {args : List Value}
    (hParse : Block.parse source = .ok b)
    (hArgs : Stack.popMany b.arity source s = .ok (args, rest))
    (below : Stack) :
    applyBlock step source (s ++ below) =
      (applyBlock step source s).above below := by
  have hMore := Stack.popMany_append_of_eq_ok hArgs below
  simp only [applyBlock, hParse, hArgs, hMore]
  split
  · rfl
  · split
    · rfl
    · simp [Outcome.above]

theorem applyBlock_append
    {source : Text}
    {s : Stack}
    (hLocal : (applyBlock step source s).IsLocal)
    (below : Stack) :
    applyBlock step source (s ++ below) =
      (applyBlock step source s).above below := by
  cases hParse : Block.parse source with
  | error e =>
      simp only [applyBlock, hParse, Outcome.above]
  | ok b =>
      cases hArgs : Stack.popMany b.arity source s with
      | error e =>
          rcases Stack.popMany_eq_error hArgs with
            ⟨cause, n, hCause⟩
          simp only [applyBlock, hParse, hArgs, hCause]
            at hLocal
          exact (Outcome.not_isLocal_complaint _ _ _ _
            hLocal).elim
      | ok popped =>
          exact applyBlock_append_of_popMany hParse hArgs below

theorem literal_append
    (t : Text)
    (s below : Stack) :
    literal t (s ++ below) = (literal t s).above below := by
  unfold literal
  split
  · rfl
  · rfl

theorem quote_append
    (t : Text)
    (s below : Stack) :
    quote t (s ++ below) = (quote t s).above below := by
  unfold quote
  split
  · rfl
  · exact literal_append t s below

end Run

end StackCalc

------------------------------------------------------------
-- Tokens
------------------------------------------------------------

namespace StackCalc

namespace Run

/-
  A token finds the values it needs on a stack. A text that
  is no operator needs none, and EVAL needs a value whose
  text finds what it needs on the rest.
-/
inductive Saturated : Text → Stack → Prop
  | other
      {t : Text}
      {s : Stack}
      (hOther : Operator.ofName? t = none) :
      Saturated t s
  | operator
      (op : Operator)
      {s : Stack}
      (hOp : op ≠ .unary .evaluate)
      (hArity : op.arity ≤ s.length) :
      Saturated op.name s
  | evaluate
      {v : Value}
      {t : Text}
      {s : Stack}
      (hText : v.render = some t)
      (hBelow : Saturated t s) :
      Saturated UnaryOp.evaluate.name (v :: s)

/-
  What a saturated token does is the same above any other
  values, unless the stack complains. The induction is on
  the texts that EVAL passes on, each one level deeper.
-/
theorem dispatch_append_of_isLocal
    {t : Text}
    {s : Stack}
    (hSaturated : Saturated t s)
    (depth : Nat)
    (hLocal : (dispatch depth t s).IsLocal)
    (below : Stack) :
    dispatch depth t (s ++ below) =
      (dispatch depth t s).above below := by
  induction hSaturated generalizing depth with
  | @other t s hOther =>
      cases depth with
      | zero =>
          rfl
      | succ depth =>
          simp only [dispatch, hOther] at hLocal ⊢
          split
          · exact quote_append _ s below
          · exact applyBlock_append hLocal below
          · exact literal_append t s below
  | operator op hOp hArity =>
      cases depth with
      | zero =>
          rfl
      | succ depth =>
          rw [dispatch_name] at hLocal ⊢
          rw [dispatch_name]
          exact perform_append hOp hArity hLocal below
  | @evaluate v t s hText hBelow ih =>
      cases depth with
      | zero =>
          rfl
      | succ depth =>
          have hStep :
              ∀ rest : Stack,
                dispatch (depth + 1) UnaryOp.evaluate.name
                  (v :: rest) = dispatch depth t rest := by
            intro rest
            refine (dispatch_name (.unary .evaluate) depth
              (v :: rest)).trans ?_
            simp only [perform, unary, evaluate, hText]
          rw [hStep] at hLocal ⊢
          rw [List.cons_append, hStep]
          exact ih depth hLocal

/-
  Evaluation is local. A token that finds the values it
  needs gives the same result above any other values, and
  so does it fail, unless the stack complains. A block
  never depends on the values below its arguments and
  never changes them.
-/
theorem dispatch_append
    {t : Text}
    {s : Stack}
    (hSaturated : Saturated t s)
    (depth : Nat)
    (below : Stack) :
    (∀ s', dispatch depth t s = .ok s' →
        dispatch depth t (s ++ below) = .ok (s' ++ below)) ∧
      (∀ f s', dispatch depth t s = .error ⟨.fault f, s'⟩ →
        f.kind ≠ .corruption →
        dispatch depth t (s ++ below) =
          .error ⟨.fault f, s' ++ below⟩) ∧
      ∀ b, Block.parse t = .ok b → b.arity = s.length →
        dispatch depth t (s ++ below) =
          (dispatch depth t s).above below := by
  refine ⟨?_, ?_, ?_⟩
  · intro s' hOk
    have hAbove :=
      dispatch_append_of_isLocal hSaturated depth
        (by rw [hOk]; trivial) below
    rw [hAbove, hOk]
    rfl
  · intro f s' hError hKind
    have hAbove :=
      dispatch_append_of_isLocal hSaturated depth
        (by rw [hError]; exact ⟨f, rfl, hKind⟩) below
    rw [hAbove, hError]
    rfl
  · intro b hParse hArity
    rcases Block.exists_eq_cons_of_parse hParse with
      ⟨rest, rfl⟩
    cases depth with
    | zero =>
        rfl
    | succ depth =>
        have hArgs :=
          Stack.popMany_append s ('{' :: rest) []
        rw [List.append_nil, ← hArity] at hArgs
        rw [dispatch_block, dispatch_block]
        exact applyBlock_append_of_popMany hParse hArgs below

/-
  Above a five, EVAL moves a window and EVAL complains of a
  number, and a block that drops its only argument does not
  reach the five.
-/
theorem dispatch_append_five :
    Saturated UnaryOp.evaluate.name
        [ .deferred StackOp.roll.name, .integer 2,
          .boolean true, .boolean false ] ∧
      dispatch 2 UnaryOp.evaluate.name
          ([ .deferred StackOp.roll.name, .integer 2,
            .boolean true, .boolean false ] ++
              [.integer 5]) =
        .ok [.boolean false, .boolean true, .integer 5] ∧
      dispatch 2 UnaryOp.evaluate.name
          ([.deferred UnaryOp.negate.name, .integer 1] ++
            [.integer 5]) =
        .error
          ⟨.fault (.typing
            (.needsBoolean UnaryOp.negate.name .integer)),
            [.integer 5]⟩ ∧
      dispatch 2 (Block.written 1 "x0 DROP +".toList)
          ([.boolean true] ++ [.integer 5]) =
        (dispatch 2 (Block.written 1 "x0 DROP +".toList)
          [.boolean true]).above [.integer 5] := by
  have hRoll :
      Saturated UnaryOp.evaluate.name
        [ .deferred StackOp.roll.name, .integer 2,
          .boolean true, .boolean false ] :=
    .evaluate rfl
      (.operator (.stack .roll) (by decide) (by decide))
  have hNegate :
      Saturated UnaryOp.evaluate.name
        [.deferred UnaryOp.negate.name, .integer 1] :=
    .evaluate rfl
      (.operator (.unary .negate) (by decide) (by decide))
  have hBlock :
      Saturated (Block.written 1 "x0 DROP +".toList)
        [.boolean true] :=
    .other (Operator.ofName?_eq_none
      (c := '{') (by decide) List.mem_cons_self)
  have hParse :=
    Block.parse_written (n := 1)
      (Decimal.isShort_of_fits (by decide))
      "x0 DROP +".toList
  refine ⟨hRoll, ?_, ?_, ?_⟩
  · exact (dispatch_append hRoll 2 [.integer 5]).1 _ rfl
  · exact (dispatch_append hNegate 2 [.integer 5]).2.1 _ _ rfl
      (by decide)
  · exact (dispatch_append hBlock 2 [.integer 5]).2.2 _ hParse
      rfl

end Run

end StackCalc
