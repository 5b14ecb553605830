import Mathlib.Logic.Relation
import StackCalc.Proofs.Failures

/-
  Runs inside of runs.

  A token is carried out by itself, or it goes on with one
  other run: EVAL with the text of the value it popped, on
  the rest of the stack, and a block with the tokens of its
  line, on a stack of its own. Nothing else depends on the
  depth, so a run that does not run out of depth is the
  same at every greater depth.

  Moments follow the run into all runs inside of it. What
  holds of the first moment and passes from each to those
  that follow holds whenever a token is carried out.

  Main declarations:
    * `Outcome.IsFinished`
    * `Stop.IsOfText`
    * `Run.dispatchBy_cases`
    * `Run.dispatch_of_le`
    * `Run.Moment`
    * `Run.Follows`
    * `Run.Reaches`
    * `Run.reaches_left`
-/

------------------------------------------------------------
-- Outcomes That Are Not Cut Short
------------------------------------------------------------

namespace StackCalc

namespace Outcome

/- An outcome other than for want of depth. -/
def IsFinished : Outcome → Prop
  | .ok _ => True
  | .error f => f.cause ≠ .outOfDepth

@[simp] theorem isFinished_ok
    (s : Stack) :
    IsFinished (.ok s) :=
  trivial

@[simp] theorem isFinished_error_iff
    {f : Failure} :
    IsFinished (.error f) ↔ f.cause ≠ .outOfDepth :=
  Iff.rfl

end Outcome

namespace Stack

theorem complaint_ne_outOfDepth
    (token : Text)
    (cause : StackFault)
    (n : Int) :
    complaint token cause n ≠ .outOfDepth := by
  unfold complaint
  split
  · simp
  · simp

theorem ne_outOfDepth_of_require
    {needed : Int}
    {token : Text}
    {s : Stack}
    {e : Stop}
    (h : require needed token s = .error e) :
    e ≠ .outOfDepth := by
  unfold require at h
  split at h
  · simp at h
  · rw [← Except.error.inj h]
    exact complaint_ne_outOfDepth _ _ _

theorem ne_outOfDepth_of_popMany
    {count : Int}
    {token : Text}
    {s : Stack}
    {e : Stop}
    (h : popMany count token s = .error e) :
    e ≠ .outOfDepth := by
  unfold popMany at h
  split at h
  · rw [← Except.error.inj h]
    exact complaint_ne_outOfDepth _ _ _
  · split at h
    · rw [← Except.error.inj h]
      exact ne_outOfDepth_of_require ‹_›
    · simp at h

theorem ne_outOfDepth_of_rotateWindow
    {size : Int}
    {towardTop : Bool}
    {token : Text}
    {s : Stack}
    {e : Stop}
    (h : rotateWindow size towardTop token s = .error e) :
    e ≠ .outOfDepth := by
  unfold rotateWindow at h
  split at h
  · rw [← Except.error.inj h]
    exact complaint_ne_outOfDepth _ _ _
  · split at h
    · rw [← Except.error.inj h]
      exact ne_outOfDepth_of_require ‹_›
    · simp at h

end Stack

/-
  A cause that a text can give when it is read: that of a
  text that is not well made, or of too many digits.
-/
def Stop.IsOfText : Stop → Prop
  | .fault f => f.kind = .malformed ∨ f.kind = .dimension
  | .tooManyDigits => True
  | .outOfDepth => False

theorem Stop.IsOfText.ne_outOfDepth
    {e : Stop}
    (h : e.IsOfText) :
    e ≠ .outOfDepth := by
  rintro rfl
  exact h

namespace Literal

theorem isOfText_stopAt
    (t : Text)
    (e : ReadError) :
    (stopAt t e).IsOfText := by
  cases e with
  | malformed cause rest =>
      exact .inl rfl
  | tooManyDigits =>
      trivial

theorem Node.kind_of_toValue
    {node : Node}
    {f : Fault}
    (h : node.toValue = .error f) :
    f.kind = .dimension := by
  unfold toValue at h
  split at h
  · simp at h
  · simp at h
  · split at h
    · simp at h
    · rw [← Except.error.inj h]
      rfl

/- A literal takes no depth, and no stack. -/
theorem isOfText_of_parse
    {t : Text}
    {e : Stop}
    (h : parse t = .error e) :
    e.IsOfText := by
  unfold parse at h
  split at h
  · simp at h
  · split at h
    · rw [← Except.error.inj h]
      exact .inl rfl
    · split at h
      · rw [← Except.error.inj h]
        exact isOfText_stopAt t _
      · split at h
        · simp at h
        · rename_i hValue
          rw [← Except.error.inj h]
          exact .inr (Node.kind_of_toValue hValue)

end Literal

namespace Block

theorem isOfText_malformed
    (cause : Malformation)
    (source : Text) :
    (malformed cause source).IsOfText :=
  .inl rfl

/- Neither does reading a block. -/
theorem isOfText_of_parse
    {source : Text}
    {e : Stop}
    (h : parse source = .error e) :
    e.IsOfText := by
  have hDigits : Stop.tooManyDigits.IsOfText := trivial
  unfold parse at h
  grind [isOfText_malformed]

theorem isOfText_of_placeholder
    {source digits : Text}
    {args : List Value}
    {e : Stop}
    (h : placeholder source args digits = .error e) :
    e.IsOfText := by
  have hDigits : Stop.tooManyDigits.IsOfText := trivial
  unfold placeholder at h
  grind [isOfText_malformed]

theorem isOfText_of_fill
    {source t : Text}
    {args : List Value}
    {e : Stop}
    (h : fill source args t = .error e) :
    e.IsOfText := by
  fun_induction fill source args t generalizing e with
  | case1 => simp at h
  | case2 c rest hc e' hError =>
      rw [← Except.error.inj h]
      exact isOfText_of_placeholder hError
  | case3 c rest hc t hText e' hError ih =>
      rw [← Except.error.inj h]
      exact ih hError
  | case4 => simp at h
  | case5 c rest hc e' hError ih =>
      rw [← Except.error.inj h]
      exact ih hError
  | case6 => simp at h

/- Nor putting values into its line. -/
theorem isOfText_of_substitute
    {b : Block}
    {args : List Value}
    {e : Stop}
    (h : b.substitute args = .error e) :
    e.IsOfText := by
  unfold substitute at h
  cases hFill : fill b.source args b.body with
  | error e' =>
      rw [hFill] at h
      rw [← Except.error.inj h]
      exact isOfText_of_fill hFill
  | ok filled =>
      rw [hFill] at h
      simp [bind, Except.bind, pure, Except.pure] at h

end Block

end StackCalc

------------------------------------------------------------
-- What A Token Goes On With
------------------------------------------------------------

namespace StackCalc

namespace Block

/-
  A block that finds its values on a stack: the line that
  it runs, and what it leaves of the stack.
-/
inductive Runs : Text → Stack → Text → Stack → Prop
  | line
      {source line : Text}
      {s rest : Stack}
      {b : Block}
      {args : List Value}
      (hParse : parse source = .ok b)
      (hArgs :
        Stack.popMany b.arity source s = .ok (args, rest))
      (hLine : b.substitute args = .ok line) :
      Runs source s line rest

end Block

namespace Run

/- What comes of the outcome of a block's line. -/
def returned
    (rest : Stack) : Outcome → Outcome
  | .error f => .error ⟨f.cause, rest⟩
  | .ok scope => .ok (scope ++ rest)

theorem isFinished_of_returned
    {rest : Stack}
    {r : Outcome}
    (h : (returned rest r).IsFinished) :
    r.IsFinished := by
  cases r with
  | ok s =>
      trivial
  | error f =>
      exact h

/- Carry out a token, by `step` where it goes on. -/
def dispatchBy
    (step : Text → Stack → Outcome)
    (t : Text)
    (s : Stack) : Outcome :=
  match Operator.ofName? t with
  | some op => perform step op s
  | none =>
      match t with
      | '\'' :: rest => quote rest s
      | '{' :: _ => applyBlock step t s
      | _ => literal t s

theorem dispatch_succ
    (depth : Nat)
    (t : Text)
    (s : Stack) :
    dispatch (depth + 1) t s =
      dispatchBy (dispatch depth) t s :=
  rfl

/- An outcome that comes about whatever `step` does. -/
def IsDirect
    (r : (Text → Stack → Outcome) → Outcome) : Prop :=
  ∃ r' : Outcome, r'.IsFinished ∧ ∀ step, r step = r'

theorem isDirect_of_isFinished
    {r : Outcome}
    (h : r.IsFinished) :
    IsDirect fun _ => r :=
  ⟨r, h, fun _ => rfl⟩

theorem isDirect_ok
    (s : Stack) :
    IsDirect fun _ => .ok s :=
  isDirect_of_isFinished trivial

theorem isDirect_failing
    (f : Fault)
    (s : Stack) :
    IsDirect fun _ => failing f s :=
  isDirect_of_isFinished (by simp [failing])

/- Unary operators other than EVAL do not go on. -/
theorem unary_isDirect
    {op : UnaryOp}
    (hOp : op ≠ .evaluate)
    (v : Value)
    (rest : Stack) :
    IsDirect fun step => unary step op v rest := by
  cases op with
  | evaluate =>
      exact absurd rfl hOp
  | negate =>
      cases v with
      | boolean b => exact isDirect_ok _
      | _ => exact isDirect_failing _ _
  | complement =>
      cases v with
      | integer z => exact isDirect_ok _
      | _ => exact isDirect_failing _ _
  | transpose =>
      cases v with
      | matrix m => exact isDirect_ok _
      | _ => exact isDirect_failing _ _

theorem binary_isFinished
    (op : BinaryOp)
    (l r : Value)
    (rest : Stack) :
    (binary op l r rest).IsFinished := by
  unfold binary
  split
  · simp
  · simp [failing]

theorem roll_isFinished
    (op : StackOp)
    (towardTop : Bool)
    (size : Value)
    (rest : Stack) :
    (roll op towardTop size rest).IsFinished := by
  unfold roll
  split
  · split
    · simp
    · rename_i e hError
      exact Stack.ne_outOfDepth_of_rotateWindow hError
  · simp [failing]

theorem choose_isFinished
    (condition onFalse onTrue : Value)
    (rest : Stack) :
    (choose condition onFalse onTrue rest).IsFinished := by
  unfold choose
  split
  · simp
  · simp [failing]

theorem perform_stack_isDirect
    (op : StackOp)
    (s : Stack) :
    IsDirect fun step => perform step (.stack op) s := by
  cases op with
  | drop =>
      rcases s with _ | ⟨v, rest⟩
      all_goals exact isDirect_ok _
  | duplicate =>
      rcases s with _ | ⟨v, rest⟩
      all_goals exact isDirect_ok _
  | swap =>
      rcases s with _ | ⟨a, _ | ⟨b, rest⟩⟩
      all_goals exact isDirect_ok _
  | rotate =>
      rcases s with _ | ⟨a, _ | ⟨b, _ | ⟨c, rest⟩⟩⟩
      all_goals exact isDirect_ok _
  | roll =>
      rcases s with _ | ⟨n, _ | ⟨v, rest⟩⟩
      · exact isDirect_ok _
      · exact isDirect_ok _
      · exact isDirect_of_isFinished (roll_isFinished _ _ n _)
  | rollDown =>
      rcases s with _ | ⟨n, _ | ⟨v, rest⟩⟩
      · exact isDirect_ok _
      · exact isDirect_ok _
      · exact isDirect_of_isFinished (roll_isFinished _ _ n _)

/- Of the operators only EVAL goes on, with a text. -/
theorem perform_cases
    (op : Operator)
    (s : Stack) :
    (IsDirect fun step => perform step op s) ∨
      ∃ v t rest,
        op = .unary .evaluate ∧ s = v :: rest ∧
          v.render = some t ∧
          ∀ step, perform step op s = step t rest := by
  cases op with
  | unary op =>
      rcases s with _ | ⟨v, rest⟩
      · exact .inl (isDirect_ok _)
      · by_cases hOp : op = .evaluate
        · subst hOp
          cases hText : v.render with
          | none =>
              refine .inl ⟨.error ⟨.tooManyDigits, rest⟩,
                by simp, ?_⟩
              intro step
              simp only [perform, unary, evaluate, hText]
          | some t =>
              refine .inr ⟨v, t, rest, rfl, rfl, hText, ?_⟩
              intro step
              simp only [perform, unary, evaluate, hText]
        · exact .inl (unary_isDirect hOp v rest)
  | binary op =>
      rcases s with _ | ⟨r, _ | ⟨l, rest⟩⟩
      · exact .inl (isDirect_ok _)
      · exact .inl (isDirect_ok _)
      · exact .inl
          (isDirect_of_isFinished (binary_isFinished op l r rest))
  | stack op =>
      exact .inl (perform_stack_isDirect op s)
  | conditional =>
      rcases s with _ | ⟨c, _ | ⟨f, _ | ⟨t, rest⟩⟩⟩
      · exact .inl (isDirect_ok _)
      · exact .inl (isDirect_ok _)
      · exact .inl (isDirect_ok _)
      · exact .inl
          (isDirect_of_isFinished (choose_isFinished c f t rest))

/- A block goes on with the tokens of its line. -/
theorem applyBlock_cases
    (source : Text)
    (s : Stack) :
    (IsDirect fun step => applyBlock step source s) ∨
      ∃ line rest,
        Block.Runs source s line rest ∧
          ∀ step, applyBlock step source s =
            returned rest
              (tokens step (Token.split line) []) := by
  cases hParse : Block.parse source with
  | error e =>
      refine .inl ⟨.error ⟨e, s⟩,
        (Block.isOfText_of_parse hParse).ne_outOfDepth, ?_⟩
      intro step
      simp only [applyBlock, hParse]
  | ok b =>
      cases hArgs : Stack.popMany b.arity source s with
      | error e =>
          refine .inl ⟨.error ⟨e, s⟩,
            Stack.ne_outOfDepth_of_popMany hArgs, ?_⟩
          intro step
          simp only [applyBlock, hParse, hArgs]
      | ok popped =>
          rcases popped with ⟨args, rest⟩
          cases hLine : b.substitute args with
          | error e =>
              refine .inl ⟨.error ⟨e, rest⟩,
                (Block.isOfText_of_substitute
                  hLine).ne_outOfDepth, ?_⟩
              intro step
              simp only [applyBlock, hParse, hArgs, hLine]
          | ok line =>
              refine .inr
                ⟨line, rest, .line hParse hArgs hLine, ?_⟩
              intro step
              simp only [applyBlock, hParse, hArgs, hLine]
              cases tokens step (Token.split line) [] with
              | _ =>
                  rfl

theorem literal_isFinished
    (t : Text)
    (s : Stack) :
    (literal t s).IsFinished := by
  unfold literal
  split
  · trivial
  · rename_i e hError
    exact (Literal.isOfText_of_parse hError).ne_outOfDepth

theorem quote_isFinished
    (t : Text)
    (s : Stack) :
    (quote t s).IsFinished := by
  unfold quote
  split
  · trivial
  · exact literal_isFinished t s

/-
  A token is carried out by itself, or it passes on a text
  to be carried out in its place, or it runs a line. In
  each case it goes on at most once.
-/
theorem dispatchBy_cases
    (t : Text)
    (s : Stack) :
    (IsDirect fun step => dispatchBy step t s) ∨
      (∃ v t' rest,
        t = UnaryOp.evaluate.name ∧ s = v :: rest ∧
          v.render = some t' ∧
          ∀ step, dispatchBy step t s = step t' rest) ∨
      ∃ line rest,
        Block.Runs t s line rest ∧
          ∀ step, dispatchBy step t s =
            returned rest
              (tokens step (Token.split line) []) := by
  unfold dispatchBy
  cases hName : Operator.ofName? t with
  | some op =>
      rcases perform_cases op s with
        hDirect | ⟨v, t', rest, rfl, hStack, hText, hStep⟩
      · exact .inl hDirect
      · exact .inr (.inl ⟨v, t', rest,
          (Operator.name_of_ofName? hName).symm, hStack, hText,
          hStep⟩)
  | none =>
      simp only
      split
      · exact .inl
          (isDirect_of_isFinished (quote_isFinished _ s))
      · rcases applyBlock_cases _ s with hDirect | hRuns
        · exact .inl hDirect
        · exact .inr (.inr hRuns)
      · exact .inl
          (isDirect_of_isFinished (literal_isFinished t s))

end Run

end StackCalc

------------------------------------------------------------
-- Depth
------------------------------------------------------------

namespace StackCalc

namespace Run

/- Tokens that are finished do not see a better step. -/
theorem tokens_eq_of_isFinished
    {step better : Text → Stack → Outcome}
    (hStep :
      ∀ t s, (step t s).IsFinished → better t s = step t s)
    {ts : List Text}
    {s : Stack}
    (h : (tokens step ts s).IsFinished) :
    tokens better ts s = tokens step ts s := by
  induction ts generalizing s with
  | nil =>
      rfl
  | cons t ts ih =>
      rw [tokens] at h ⊢
      rw [tokens]
      cases hFirst : step t s with
      | ok s' =>
          rw [hFirst] at h
          rw [hStep t s (by simp [hFirst]), hFirst]
          exact ih h
      | error f =>
          rw [hFirst] at h
          rw [hStep t s (by rw [hFirst]; exact h), hFirst]

/- One level more changes nothing that is finished. -/
theorem dispatch_succ_of_isFinished
    {depth : Nat}
    {t : Text}
    {s : Stack}
    (h : (dispatch depth t s).IsFinished) :
    dispatch (depth + 1) t s = dispatch depth t s := by
  induction depth generalizing t s with
  | zero =>
      exact absurd rfl h
  | succ depth ih =>
      rw [dispatch_succ] at h ⊢
      rw [dispatch_succ]
      rcases dispatchBy_cases t s with
        ⟨r, -, hDirect⟩ | ⟨v, t', rest, -, -, -, hStep⟩ |
          ⟨line, rest, -, hLine⟩
      · exact (hDirect _).trans (hDirect _).symm
      · rw [hStep] at h ⊢
        rw [hStep]
        exact ih h
      · rw [hLine] at h ⊢
        rw [hLine,
          tokens_eq_of_isFinished (fun _ _ => ih)
            (isFinished_of_returned h)]

/- A finished outcome is the same at every greater depth. -/
theorem dispatch_of_le
    {depth more : Nat}
    {t : Text}
    {s : Stack}
    (h : (dispatch depth t s).IsFinished)
    (hLe : depth ≤ more) :
    dispatch more t s = dispatch depth t s := by
  induction hLe with
  | refl =>
      rfl
  | step hLe ih =>
      rw [← ih] at h
      rw [dispatch_succ_of_isFinished h, ih]

theorem tokens_dispatch_of_le
    {depth more : Nat}
    {ts : List Text}
    {s : Stack}
    (h : (tokens (dispatch depth) ts s).IsFinished)
    (hLe : depth ≤ more) :
    tokens (dispatch more) ts s =
      tokens (dispatch depth) ts s :=
  tokens_eq_of_isFinished
    (fun _ _ hFirst => dispatch_of_le hFirst hLe) h

end Run

end StackCalc

------------------------------------------------------------
-- Moments
------------------------------------------------------------

namespace StackCalc

namespace Run

/-
  A moment of a run: how deep it may still go, the tokens
  that it has not yet carried out, and its stack.
-/
structure Moment where
  depth : Nat
  tokens : List Text
  stack : Stack

/-
  What follows a moment at which a token is carried out: it
  leaves its stack to the other tokens, or it fails and
  leaves its stack to none. Before that, the run that it
  goes on with has moments of its own.
-/
inductive Follows : Moment → Moment → Prop
  | next
      {depth : Nat}
      {t : Text}
      {ts : List Text}
      {s s' : Stack}
      (hOk : dispatch depth t s = .ok s') :
      Follows ⟨depth, t :: ts, s⟩ ⟨depth, ts, s'⟩
  | fail
      {depth : Nat}
      {t : Text}
      {ts : List Text}
      {s : Stack}
      {f : Failure}
      (hError : dispatch depth t s = .error f) :
      Follows ⟨depth, t :: ts, s⟩ ⟨depth, [], f.stack⟩
  | evaluate
      {depth : Nat}
      {t : Text}
      {ts : List Text}
      {v : Value}
      {s : Stack}
      (hText : v.render = some t) :
      Follows
        ⟨depth + 1, UnaryOp.evaluate.name :: ts, v :: s⟩
        ⟨depth, [t], s⟩
  | block
      {depth : Nat}
      {source line : Text}
      {ts : List Text}
      {s rest : Stack}
      (hRuns : Block.Runs source s line rest) :
      Follows
        ⟨depth + 1, source :: ts, s⟩
        ⟨depth, Token.split line, []⟩

/- One moment comes after another, sooner or later. -/
def Reaches : Moment → Moment → Prop :=
  Relation.ReflTransGen Follows

/- What each moment passes on holds sooner or later. -/
theorem Reaches.induct
    {P : Moment → Prop}
    {m m' : Moment}
    (hReaches : Reaches m m')
    (hStep : ∀ {m m'}, Follows m m' → P m → P m')
    (h : P m) :
    P m' := by
  induction hReaches with
  | refl =>
      exact h
  | tail _ hFollows ih =>
      exact hStep hFollows ih

/-
  Tokens come to an end on the stack that they leave, if
  only by failing.
-/
theorem reaches_left
    (depth : Nat)
    (ts : List Text)
    (s : Stack) :
    Reaches ⟨depth, ts, s⟩
      ⟨depth, [],
        Session.left (tokens (dispatch depth) ts s)⟩ := by
  induction ts generalizing s with
  | nil =>
      exact .refl
  | cons t ts ih =>
      rw [tokens]
      cases hFirst : dispatch depth t s with
      | ok s' =>
          exact .head (.next hFirst) (ih s')
      | error f =>
          exact .single (.fail hFirst)

end Run

end StackCalc
