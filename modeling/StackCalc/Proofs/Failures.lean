import StackCalc.Proofs.Dispatch
import StackCalc.Run.Session

/-
  What a failure leaves on the stack.

  Whatever goes wrong while a token is carried out, the
  values left are the lower part of the stack it started
  with. Operators take their values before they complain,
  EVAL passes on what the text below it leaves, and a block
  runs on a stack of its own, which is lost with it.

  Main declarations:
    * `Run.OnlyRemoves`
    * `Run.perform_leavesPart`
    * `Run.applyBlock_leavesPart`
    * `Run.dispatch_onlyRemoves`
    * `Run.tokens_eq_error_iff`
    * `Session.exists_failing_token`
-/

------------------------------------------------------------
-- Operators
------------------------------------------------------------

namespace StackCalc

namespace Run

/-
  A failed outcome on a stack leaves a lower part of it.
-/
def LeavesPart
    (s : Stack)
    (r : Outcome) : Prop :=
  ∀ f, r = .error f → f.stack <:+ s

/- Every failure of a step leaves a part of its stack. -/
def OnlyRemoves
    (step : Text → Stack → Outcome) : Prop :=
  ∀ t s, LeavesPart s (step t s)

theorem leavesPart_ok
    (s s' : Stack) :
    LeavesPart s (.ok s') := by
  intro f h
  simp at h

theorem leavesPart_error
    {s s' : Stack}
    (cause : Stop)
    (h : s' <:+ s) :
    LeavesPart s (.error ⟨cause, s'⟩) := by
  intro f hError
  rw [← Except.error.inj hError]
  exact h

/- What is part of the rest is part of the whole. -/
theorem LeavesPart.trans
    {rest s : Stack}
    {r : Outcome}
    (h : LeavesPart rest r)
    (hRest : rest <:+ s) :
    LeavesPart s r :=
  fun f hError => (h f hError).trans hRest

variable {step : Text → Stack → Outcome}

theorem evaluate_leavesPart
    (hStep : OnlyRemoves step)
    (v : Value)
    (rest : Stack) :
    LeavesPart rest (evaluate step v rest) := by
  unfold evaluate
  split
  · exact hStep _ _
  · exact leavesPart_error _ (List.suffix_refl rest)

theorem unary_leavesPart
    (hStep : OnlyRemoves step)
    (op : UnaryOp)
    (v : Value)
    (rest : Stack) :
    LeavesPart rest (unary step op v rest) := by
  unfold unary
  split
  · exact leavesPart_ok _ _
  · exact leavesPart_error _ (List.suffix_refl rest)
  · exact leavesPart_ok _ _
  · exact leavesPart_error _ (List.suffix_refl rest)
  · exact leavesPart_ok _ _
  · exact leavesPart_error _ (List.suffix_refl rest)
  · exact evaluate_leavesPart hStep _ rest

theorem binary_leavesPart
    (op : BinaryOp)
    (l r : Value)
    (rest : Stack) :
    LeavesPart rest (binary op l r rest) := by
  unfold binary
  split
  · exact leavesPart_ok _ _
  · exact leavesPart_error _ (List.suffix_refl rest)

theorem roll_leavesPart
    (op : StackOp)
    (towardTop : Bool)
    (size : Value)
    (rest : Stack) :
    LeavesPart rest (roll op towardTop size rest) := by
  unfold roll
  split
  · split
    · exact leavesPart_ok _ _
    · exact leavesPart_error _ (List.suffix_refl rest)
  · exact leavesPart_error _ (List.suffix_refl rest)

theorem choose_leavesPart
    (condition onFalse onTrue : Value)
    (rest : Stack) :
    LeavesPart rest
      (choose condition onFalse onTrue rest) := by
  unfold choose
  split
  · exact leavesPart_ok _ _
  · exact leavesPart_error _ (List.suffix_refl rest)

/-
  An operator that fails has removed the values it popped,
  and what the text removed that EVAL carried out.
-/
theorem perform_leavesPart
    (hStep : OnlyRemoves step)
    (op : Operator)
    (s : Stack) :
    LeavesPart s (perform step op s) := by
  unfold perform
  split
  · exact (unary_leavesPart hStep _ _ _).trans
      (List.suffix_cons _ _)
  · exact (binary_leavesPart _ _ _ _).trans
      ((List.suffix_cons _ _).trans (List.suffix_cons _ _))
  · exact leavesPart_ok _ _
  · exact leavesPart_ok _ _
  · exact leavesPart_ok _ _
  · exact leavesPart_ok _ _
  · exact (roll_leavesPart _ _ _ _).trans
      (List.suffix_cons _ _)
  · exact (roll_leavesPart _ _ _ _).trans
      (List.suffix_cons _ _)
  · exact (choose_leavesPart _ _ _ _).trans
      ((List.suffix_cons _ _).trans
        ((List.suffix_cons _ _).trans (List.suffix_cons _ _)))
  · exact leavesPart_ok _ _

end Run

end StackCalc

------------------------------------------------------------
-- Blocks And Literals
------------------------------------------------------------

namespace StackCalc

namespace Stack

/- What is left of a stack after popping is part of it. -/
theorem suffix_of_popMany
    {count : Int}
    {token : Text}
    {s rest : Stack}
    {args : List Value}
    (h : popMany count token s = .ok (args, rest)) :
    rest <:+ s := by
  unfold popMany at h
  split at h
  · simp at h
  · unfold require at h
    split at h
    · simp at h
    · rename_i s' hRequire
      split at hRequire
      · simp only [Except.ok.injEq] at hRequire
        simp only [Except.ok.injEq, Prod.mk.injEq] at h
        rw [← h.2, ← hRequire]
        exact List.drop_suffix _ _
      · simp at hRequire

end Stack

namespace Run

/-
  A block that fails has removed at most its arguments: its
  line runs on a stack of its own.
-/
theorem applyBlock_leavesPart
    (step : Text → Stack → Outcome)
    (source : Text)
    (s : Stack) :
    LeavesPart s (applyBlock step source s) := by
  unfold applyBlock
  split
  · exact leavesPart_error _ (List.suffix_refl s)
  · split
    · exact leavesPart_error _ (List.suffix_refl s)
    · rename_i args rest hArgs
      have hRest := Stack.suffix_of_popMany hArgs
      split
      · exact leavesPart_error _ hRest
      · split
        · exact leavesPart_error _ hRest
        · exact leavesPart_ok _ _

/- A literal that cannot be read leaves the whole stack. -/
theorem stack_of_literal_error
    {t : Text}
    {s : Stack}
    {f : Failure}
    (h : literal t s = .error f) :
    f.stack = s := by
  unfold literal at h
  split at h
  · simp at h
  · rw [← Except.error.inj h]

theorem stack_of_quote_error
    {t : Text}
    {s : Stack}
    {f : Failure}
    (h : quote t s = .error f) :
    f.stack = s := by
  unfold quote at h
  split at h
  · simp at h
  · exact stack_of_literal_error h

end Run

end StackCalc

------------------------------------------------------------
-- Tokens
------------------------------------------------------------

namespace StackCalc

namespace Run

/-
  Carrying out a token only removes values when it fails.
  The depth carries the induction: EVAL goes on one level
  deeper, on the stack without the value it popped.
-/
theorem dispatch_onlyRemoves
    (depth : Nat) :
    OnlyRemoves (dispatch depth) := by
  induction depth with
  | zero =>
      intro t s
      exact leavesPart_error _ (List.suffix_refl s)
  | succ depth ih =>
      intro t s
      unfold dispatch
      split
      · exact perform_leavesPart ih _ s
      · split
        · intro f h
          simp [stack_of_quote_error h]
        · exact applyBlock_leavesPart _ _ s
        · intro f h
          simp [stack_of_literal_error h]

/-
  A token that is neither an operator nor a block leaves
  the whole stack when it fails.
-/
theorem stack_of_dispatch_error
    {depth : Nat}
    {t : Text}
    {s : Stack}
    {f : Failure}
    (hOperator : Operator.isName t = false)
    (hBlock : t.head? ≠ some '{')
    (h : dispatch depth t s = .error f) :
    f.stack = s := by
  have hNone : Operator.ofName? t = none := by
    simpa [Operator.isName] using hOperator
  cases depth with
  | zero =>
      rw [← Except.error.inj h]
  | succ depth =>
      by_cases hQuote : t.head? = some '\''
      · rcases List.head?_eq_some_iff.1 hQuote with
          ⟨rest, rfl⟩
        rw [dispatch_quote] at h
        exact stack_of_quote_error h
      · rw [dispatch_literal hNone hQuote hBlock] at h
        exact stack_of_literal_error h

/-
  Tokens fail exactly when one of them fails on the stack
  that the tokens before it leave. The tokens after it do
  not matter.
-/
theorem tokens_eq_error_iff
    {step : Text → Stack → Outcome}
    {ts : List Text}
    {s : Stack}
    {f : Failure} :
    tokens step ts s = .error f ↔
      ∃ before t after reached,
        ts = before ++ t :: after ∧
          tokens step before s = .ok reached ∧
          step t reached = .error f := by
  induction ts generalizing s with
  | nil =>
      constructor
      · intro h
        simp [tokens] at h
      · rintro ⟨before, t, after, reached, hSplit, -, -⟩
        simp at hSplit
  | cons u us ih =>
      constructor
      · intro h
        rw [tokens] at h
        cases hFirst : step u s with
        | error g =>
            rw [hFirst] at h
            refine ⟨[], u, us, s, rfl, rfl, ?_⟩
            rw [hFirst]
            exact h
        | ok s' =>
            rw [hFirst] at h
            rcases ih.1 h with
              ⟨before, t, after, reached, rfl, hRun, hFail⟩
            refine ⟨u :: before, t, after, reached, rfl, ?_,
              hFail⟩
            rw [tokens, hFirst]
            exact hRun
      · rintro ⟨before, t, after, reached, hSplit, hRun,
          hFail⟩
        cases before with
        | nil =>
            rcases List.cons.inj hSplit with ⟨rfl, rfl⟩
            rw [tokens] at hRun
            rw [tokens, Except.ok.inj hRun, hFail]
        | cons w ws =>
            rcases List.cons.inj hSplit with ⟨rfl, rfl⟩
            rw [tokens] at hRun ⊢
            cases hFirst : step u s with
            | error g =>
                rw [hFirst] at hRun
                simp at hRun
            | ok s' =>
                rw [hFirst] at hRun
                exact ih.2
                  ⟨ws, t, after, reached, rfl, hRun, hFail⟩

/- Reporting a failure keeps its stack. -/
theorem reported_error
    (f : Failure) :
    ∃ cause, reported (.error f) = .error ⟨cause, f.stack⟩ := by
  unfold reported
  split
  · rename_i s hError
    exact ⟨.fault .tooDeep, by
      rw [Except.error.inj hError]⟩
  · exact ⟨f.cause, rfl⟩

theorem reported_eq_error
    {r : Outcome}
    {f : Failure}
    (h : reported r = .error f) :
    ∃ g, r = .error g ∧ g.stack = f.stack := by
  cases r with
  | ok s =>
      simp [reported] at h
  | error g =>
      rcases reported_error g with ⟨cause, hReported⟩
      rw [hReported] at h
      exact ⟨g, rfl, by rw [← Except.error.inj h]⟩

end Run

end StackCalc

------------------------------------------------------------
-- Sessions
------------------------------------------------------------

namespace StackCalc

namespace Session

/-
  When a program fails in a session, one of its tokens did,
  on the stack that the tokens before it left. The session
  goes on with a lower part of that stack, whatever tokens
  came after; and if the token was neither an operator nor
  a block, with all of it.
-/
theorem exists_failing_token
    {lines : List Text}
    {s : Stack}
    {depth : Nat}
    {f : Failure}
    (h : answer s (.run lines) depth = .error f) :
    ∃ before t after reached,
      Run.tokensOf lines = before ++ t :: after ∧
        Run.tokens (Run.dispatch depth) before s =
          .ok reached ∧
        (∃ g,
          Run.dispatch depth t reached = .error g ∧
            g.stack = Session.after [.run lines] s depth ∧
            ∀ others,
              Run.tokens (Run.dispatch depth)
                (before ++ t :: others) s = .error g) ∧
        Session.after [.run lines] s depth <:+ reached ∧
        (Operator.isName t = false → t.head? ≠ some '{' →
          Session.after [.run lines] s depth = reached) := by
  have hLeft :
      Session.after [.run lines] s depth = f.stack := by
    simp [Session.after, h, left]
  rcases Run.reported_eq_error h with ⟨g, hTokens, hStack⟩
  rcases Run.tokens_eq_error_iff.1 hTokens with
    ⟨before, t, after, reached, hSplit, hRun, hFail⟩
  refine ⟨before, t, after, reached, hSplit, hRun, ?_, ?_, ?_⟩
  · refine ⟨g, hFail, hStack.trans hLeft.symm, ?_⟩
    intro others
    exact Run.tokens_eq_error_iff.2
      ⟨before, t, others, reached, rfl, hRun, hFail⟩
  · rw [hLeft, ← hStack]
    exact Run.dispatch_onlyRemoves depth t reached g hFail
  · intro hOperator hBlock
    rw [hLeft, ← hStack]
    exact Run.stack_of_dispatch_error hOperator hBlock hFail

/-
  A failure below EVAL: negation takes the number, and only
  the Boolean that was there before is left.
-/
theorem exists_failing_token_eval :
    answer [.boolean true]
        (.run ["1 '! EVAL 3".toList]) =
      .error
        ⟨.fault (.typing
          (.needsBoolean UnaryOp.negate.name .integer)),
          [.boolean true]⟩ ∧
    ∃ before t after reached,
      Run.tokensOf ["1 '! EVAL 3".toList] =
          before ++ t :: after ∧
        Run.tokens (Run.dispatch Run.maxDepth) before
          [.boolean true] = .ok reached ∧
        Session.after [.run ["1 '! EVAL 3".toList]]
          [.boolean true] <:+ reached := by
  have hFails :
      answer [.boolean true]
          (.run ["1 '! EVAL 3".toList]) =
        .error
          ⟨.fault (.typing
            (.needsBoolean UnaryOp.negate.name .integer)),
            [.boolean true]⟩ :=
    rfl
  rcases exists_failing_token hFails with
    ⟨before, t, after, reached, hSplit, hRun, -, hPart, -⟩
  exact ⟨hFails, before, t, after, reached, hSplit, hRun,
    hPart⟩

end Session

end StackCalc
