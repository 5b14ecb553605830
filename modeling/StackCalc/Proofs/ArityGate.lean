import StackCalc.Proofs.FaultTokens
import StackCalc.Proofs.InnerRuns
import StackCalc.Proofs.Locality
import StackCalc.Proofs.RawAgreement
import StackCalc.Proofs.ReadValues
import StackCalc.Proofs.Windows

/-
  When a stack is found too short.

  An operator that finds too few values is pushed, so none
  ever fails for want of them. The stack complains of two
  things only: of a window that it does not hold, and of a
  block that takes more values than there are. However deep
  in a run a complaint comes up, it is one of these.

  Main declarations:
    * `Outcome.Corrupts`
    * `Stack.LacksWindow`
    * `Run.Refuses`
    * `Run.perform_eq_corruption`
    * `Run.applyBlock_eq_corruption`
    * `Run.refuses_of_tokens`
    * `Raw.IsGated`
    * `Run.corrupts_only_when_refused`
-/

------------------------------------------------------------
-- Complaints
------------------------------------------------------------

namespace StackCalc

/- An outcome that is a complaint of the stack. -/
def Outcome.Corrupts (r : Outcome) : Prop :=
  ∃ cause token s,
    r = .error ⟨.fault (.corruption cause token), s⟩

/- What a text gives when it is read is no complaint. -/
theorem Stop.IsOfText.ne_corruption
    {e : Stop}
    (h : e.IsOfText)
    (cause : StackFault)
    (token : Text) :
    e ≠ .fault (.corruption cause token) := by
  rintro rfl
  rcases h with h | h
  · simp [Fault.kind] at h
  · simp [Fault.kind] at h

namespace Stack

/- Why a stack does not hold a window. -/
inductive LacksWindow : Int → Stack → StackFault → Prop
  | empty
      {n : Int}
      {s : Stack}
      (hSmall : n < 1) :
      LacksWindow n s (.emptyWindow n)
  | tooLong
      {n : Int}
      {s : Stack}
      (hPos : 1 ≤ n)
      (hFew : s.length < n) :
      LacksWindow n s (.tooShort n s.length)

/- A window lacks when its size is out of bounds. -/
theorem exists_lacksWindow_iff
    {n : Int}
    {s : Stack} :
    (∃ cause, LacksWindow n s cause) ↔
      n < 1 ∨ s.length < n := by
  constructor
  · rintro ⟨_, hSmall | ⟨-, hFew⟩⟩
    · exact .inl hSmall
    · exact .inr hFew
  · intro h
    by_cases hSmall : n < 1
    · exact ⟨_, .empty hSmall⟩
    · exact ⟨_, .tooLong (by omega) (by omega)⟩

theorem complaint_eq_corruption_iff
    {token token' : Text}
    {cause cause' : StackFault}
    {n : Int} :
    complaint token cause n =
        .fault (.corruption cause' token') ↔
      cause = cause' ∧ token = token' ∧
        Decimal.isShort n = true := by
  unfold complaint
  split
  case isTrue hShort =>
    simp [hShort]
  case isFalse hLong =>
    simp [hLong]

/- The stack complains of windows that it lacks. -/
theorem rotateWindow_eq_corruption_iff
    {n : Int}
    {towardTop : Bool}
    {token token' : Text}
    {s : Stack}
    {cause : StackFault} :
    rotateWindow n towardTop token s =
        .error (.fault (.corruption cause token')) ↔
      LacksWindow n s cause ∧ token = token' ∧
        Decimal.isShort n = true := by
  by_cases hSmall : n < 1
  · simp only [rotateWindow, if_pos hSmall, Except.error.injEq,
      complaint_eq_corruption_iff]
    constructor
    · rintro ⟨rfl, hRest⟩
      exact ⟨.empty hSmall, hRest⟩
    · rintro ⟨_ | ⟨hPos, -⟩, hRest⟩
      · exact ⟨rfl, hRest⟩
      · omega
  · by_cases hEnough : n ≤ s.length
    · simp only [rotateWindow, require, if_neg hSmall,
        if_pos hEnough, reduceCtorEq, false_iff]
      rintro ⟨hSmall' | ⟨-, hFew⟩, -⟩
      · exact hSmall hSmall'
      · omega
    · simp only [rotateWindow, require, if_neg hSmall,
        if_neg hEnough, Except.error.injEq,
        complaint_eq_corruption_iff]
      constructor
      · rintro ⟨rfl, hRest⟩
        exact ⟨.tooLong (by omega) (by omega), hRest⟩
      · rintro ⟨hSmall' | ⟨-, -⟩, hRest⟩
        · exact absurd hSmall' hSmall
        · exact ⟨rfl, hRest⟩

/- Values are popped if there are as many. -/
theorem popMany_natCast
    (n : Nat)
    (token : Text)
    (s : Stack) :
    popMany n token s =
      if n ≤ s.length then .ok (s.take n, s.drop n)
      else
        .error (complaint token (.tooShort n s.length) n) := by
  have hPos : ¬ (n : Int) < 0 := by
    omega
  by_cases hEnough : n ≤ s.length
  · have hCast : (n : Int) ≤ s.length := by
      omega
    simp only [popMany, require, if_neg hPos, if_pos hCast,
      if_pos hEnough, Int.toNat_natCast]
  · have hCast : ¬ (n : Int) ≤ s.length := by
      omega
    simp only [popMany, require, if_neg hPos, if_neg hCast,
      if_neg hEnough]

end Stack

namespace Block

/- What a block takes is told in any complaint. -/
theorem isShort_arity
    {source : Text}
    {b : Block}
    (h : parse source = .ok b) :
    Decimal.isShort (b.arity : Int) = true := by
  unfold parse at h
  split at h
  · simp only at h
    split at h
    · simp at h
    · split at h
      case isTrue hCount =>
        split at h
        · simp at h
        · rename_i n hValue
          unfold Decimal.natValue? at hValue
          split at hValue
          case isTrue hFew =>
            rw [← Except.ok.inj h, ← Option.some.inj hValue]
            exact Decimal.isShort_natValue
              (fun d hd => isDigit_of_isCount hCount hd) hFew
          case isFalse =>
            simp at hValue
      case isFalse =>
        simp at h
  · simp at h

end Block

end StackCalc

------------------------------------------------------------
-- Refusals
------------------------------------------------------------

namespace StackCalc

namespace Run

/-
  What the stack refuses to a token: to move a window that
  it does not hold, or to give a block more values than
  there are.
-/
inductive Refuses : Text → Stack → StackFault → Prop
  | window
      {op : StackOp}
      {towardTop : Bool}
      {n : Int}
      {s : Stack}
      {cause : StackFault}
      (hOp : Rolls op towardTop)
      (hAbove : s ≠ [])
      (hShort : Decimal.isShort n = true)
      (hLacks : Stack.LacksWindow n s cause) :
      Refuses op.name (.integer n :: s) cause
  | block
      {source : Text}
      {b : Block}
      {s : Stack}
      (hParse : Block.parse source = .ok b)
      (hFew : s.length < b.arity) :
      Refuses source s (.tooShort b.arity s.length)

variable {step : Text → Stack → Outcome}
variable {cause : StackFault} {token : Text} {s' : Stack}

theorem failing_ne_corruption
    {f : Fault}
    (hKind : f.kind ≠ .corruption)
    (s : Stack) :
    failing f s ≠
      .error ⟨.fault (.corruption cause token), s'⟩ := by
  intro h
  simp only [failing, Except.error.injEq, Failure.mk.injEq,
    Stop.fault.injEq] at h
  rw [h.1] at hKind
  exact hKind rfl

theorem failing_typing_ne_corruption
    (f : TypeFault)
    (s : Stack) :
    failing (.typing f) s ≠
      .error ⟨.fault (.corruption cause token), s'⟩ :=
  failing_ne_corruption (f := .typing f) nofun s

/- Of the unary operators only EVAL passes complaints on. -/
theorem unary_ne_corruption
    {op : UnaryOp}
    (hOp : op ≠ .evaluate)
    (v : Value)
    (rest : Stack) :
    unary step op v rest ≠
      .error ⟨.fault (.corruption cause token), s'⟩ := by
  unfold unary
  split
  case h_7 =>
    exact absurd rfl hOp
  case h_1 | h_3 | h_5 =>
    simp
  all_goals exact failing_typing_ne_corruption _ _

/- The faults of binary operators are not of the stack. -/
theorem binary_ne_corruption
    (op : BinaryOp)
    (l r : Value)
    (rest : Stack) :
    binary op l r rest ≠
      .error ⟨.fault (.corruption cause token), s'⟩ := by
  unfold binary Binary.apply
  cases hGiven : Binary.combine op l.operand r.operand with
  | none =>
      exact failing_typing_ne_corruption _ _
  | some given =>
      cases given with
      | ok v =>
          simp
      | error f =>
          have hNames :=
            Binary.namesIn_combine op _ _ _ hGiven f rfl
          exact failing_ne_corruption hNames.2 _

theorem choose_ne_corruption
    (condition onFalse onTrue : Value)
    (rest : Stack) :
    choose condition onFalse onTrue rest ≠
      .error ⟨.fault (.corruption cause token), s'⟩ := by
  unfold choose
  split
  · simp
  · exact failing_typing_ne_corruption _ _

/- A window is refused, and the stack below its size kept. -/
theorem roll_eq_corruption_iff
    {op : StackOp}
    {towardTop : Bool}
    {v : Value}
    {rest : Stack} :
    roll op towardTop v rest =
        .error ⟨.fault (.corruption cause token), s'⟩ ↔
      ∃ n, v = .integer n ∧
        Stack.LacksWindow n rest cause ∧
        Decimal.isShort n = true ∧ op.name = token ∧
        rest = s' := by
  cases v with
  | integer n =>
      simp only [roll, Value.integer.injEq, exists_eq_left']
      constructor
      · intro h
        split at h
        · simp at h
        · rename_i e hError
          simp only [Except.error.injEq,
            Failure.mk.injEq] at h
          rcases h with ⟨rfl, hStack⟩
          rcases Stack.rotateWindow_eq_corruption_iff.1 hError
            with ⟨hLacks, hToken, hShort⟩
          exact ⟨hLacks, hShort, hToken, hStack⟩
      · rintro ⟨hLacks, hShort, hToken, rfl⟩
        rw [Stack.rotateWindow_eq_corruption_iff.2
          ⟨hLacks, hToken, hShort⟩]
  | _ =>
      simpa [roll] using failing_typing_ne_corruption _ rest

/-
  An operator fails by a complaint of the stack if it is
  EVAL, and passes one on, or if it moves a window and the
  stack refuses.
-/
theorem perform_eq_corruption
    {op : Operator}
    {s : Stack}
    (h : perform step op s =
      .error ⟨.fault (.corruption cause token), s'⟩) :
    op = .unary .evaluate ∨
      ∃ op' towardTop,
        op = .stack op' ∧ Rolls op' towardTop ∧
          op.name = token ∧ Refuses token s cause := by
  unfold perform at h
  split at h
  case h_1 op v rest =>
    by_cases hOp : op = .evaluate
    · exact .inl (congrArg Operator.unary hOp)
    · exact absurd h (unary_ne_corruption hOp v rest)
  case h_2 op r l rest =>
    exact absurd h (binary_ne_corruption op l r rest)
  case h_7 v w rest =>
    rcases roll_eq_corruption_iff.1 h with
      ⟨n, rfl, hLacks, hShort, rfl, -⟩
    exact .inr ⟨.roll, true, rfl, .roll, rfl,
      .window .roll (List.cons_ne_nil w rest) hShort hLacks⟩
  case h_8 v w rest =>
    rcases roll_eq_corruption_iff.1 h with
      ⟨n, rfl, hLacks, hShort, rfl, -⟩
    exact .inr ⟨.rollDown, false, rfl, .rollDown, rfl,
      .window .rollDown (List.cons_ne_nil w rest) hShort
        hLacks⟩
  case h_9 c f t rest =>
    exact absurd h (choose_ne_corruption c f t rest)
  all_goals simp at h

/-
  A block fails by a complaint of the stack if it is refused
  its values, or if its line fails so.
-/
theorem applyBlock_eq_corruption
    {source : Text}
    {s : Stack}
    (h : applyBlock step source s =
      .error ⟨.fault (.corruption cause token), s'⟩) :
    (∃ b, Block.parse source = .ok b ∧
        s.length < b.arity ∧
        .tooShort b.arity s.length = cause ∧
        source = token) ∨
      ∃ line rest scope,
        Block.Runs source s line rest ∧
          tokens step (Token.split line) [] =
            .error
              ⟨.fault (.corruption cause token), scope⟩ := by
  unfold applyBlock at h
  split at h
  case h_1 e hParse =>
    have hText := Block.isOfText_of_parse hParse
    simp only [Except.error.injEq, Failure.mk.injEq] at h
    exact absurd h.1 (hText.ne_corruption cause token)
  case h_2 b hParse =>
    split at h
    case h_1 e hArgs =>
      rw [Stack.popMany_natCast] at hArgs
      split at hArgs
      · simp at hArgs
      case isFalse hFew =>
        simp only [Except.error.injEq,
          Failure.mk.injEq] at h hArgs
        rw [← hArgs, Stack.complaint_eq_corruption_iff] at h
        rcases h with ⟨⟨rfl, rfl, -⟩, -⟩
        exact .inl ⟨b, hParse, by omega, rfl, rfl⟩
    case h_2 args rest hArgs =>
      split at h
      case h_1 e hLine =>
        have hText := Block.isOfText_of_substitute hLine
        simp only [Except.error.injEq, Failure.mk.injEq] at h
        exact absurd h.1 (hText.ne_corruption cause token)
      case h_2 line hLine =>
        split at h
        case h_1 f hRun =>
          simp only [Except.error.injEq, Failure.mk.injEq] at h
          refine .inr ⟨line, rest, f.stack,
            .line hParse hArgs hLine, ?_⟩
          rw [hRun, ← h.1]
        case h_2 =>
          simp at h

theorem literal_ne_corruption
    (t : Text)
    (s : Stack) :
    literal t s ≠
      .error ⟨.fault (.corruption cause token), s'⟩ := by
  unfold literal
  split
  · simp
  · rename_i e hError
    have hText := Literal.isOfText_of_parse hError
    intro h
    simp only [Except.error.injEq, Failure.mk.injEq] at h
    exact hText.ne_corruption cause token h.1

theorem quote_ne_corruption
    (t : Text)
    (s : Stack) :
    quote t s ≠
      .error ⟨.fault (.corruption cause token), s'⟩ := by
  unfold quote
  split
  · simp
  · exact literal_ne_corruption t s

end Run

end StackCalc

------------------------------------------------------------
-- Where Complaints Come From
------------------------------------------------------------

namespace StackCalc

namespace Run

variable {cause : StackFault} {token : Text} {s' : Stack}

/-
  A token that fails by a complaint of the stack is refused
  itself, or the run that it goes on with fails so.
-/
theorem dispatch_eq_corruption
    {depth : Nat}
    {t : Text}
    {s : Stack}
    (h : dispatch (depth + 1) t s =
      .error ⟨.fault (.corruption cause token), s'⟩) :
    (t = token ∧ Refuses token s cause) ∨
      (∃ v t' rest,
        t = UnaryOp.evaluate.name ∧ s = v :: rest ∧
          v.render = some t' ∧
          dispatch depth t' rest =
            .error
              ⟨.fault (.corruption cause token), s'⟩) ∨
      ∃ line rest scope,
        Block.Runs t s line rest ∧
          tokens (dispatch depth) (Token.split line) [] =
            .error
              ⟨.fault (.corruption cause token), scope⟩ := by
  cases hName : Operator.ofName? t with
  | some op =>
      have hText := Operator.name_of_ofName? hName
      rw [dispatch_operator hName] at h
      rcases perform_eq_corruption h with
        rfl | ⟨op', towardTop, -, -, hToken, hRefuses⟩
      · rcases s with _ | ⟨v, rest⟩
        · simp [perform] at h
        · simp only [perform, unary, evaluate] at h
          split at h
          · rename_i t' hRender
            exact .inr (.inl
              ⟨v, t', rest, hText.symm, rfl, hRender, h⟩)
          · simp at h
      · exact .inl ⟨hText.symm.trans hToken, hRefuses⟩
  | none =>
      simp only [dispatch, hName] at h
      split at h
      · exact absurd h (quote_ne_corruption _ s)
      · rcases applyBlock_eq_corruption h with
          ⟨b, hParse, hFew, rfl, rfl⟩ | hInner
        · exact .inl ⟨rfl, .block hParse hFew⟩
        · exact .inr (.inr hInner)
      · exact absurd h (literal_ne_corruption t s)

/- Tokens pass the stack that they leave on to others. -/
theorem reaches_of_tokens_eq_ok
    {depth : Nat}
    {before : List Text}
    {s reached : Stack}
    (h : tokens (dispatch depth) before s = .ok reached)
    (after : List Text) :
    Reaches ⟨depth, before ++ after, s⟩
      ⟨depth, after, reached⟩ := by
  induction before generalizing s with
  | nil =>
      rw [← Except.ok.inj h]
      exact .refl
  | cons t ts ih =>
      rw [tokens] at h
      cases hFirst : dispatch depth t s with
      | ok s' =>
          rw [hFirst] at h
          exact .head (.next hFirst) (ih h)
      | error f =>
          rw [hFirst] at h
          simp at h

/-
  When tokens fail by a complaint of the stack, there is a
  moment at which the token that it names is refused. The
  depth carries the induction: inner runs are less deep.
-/
theorem refuses_of_tokens
    {depth : Nat}
    {ts : List Text}
    {s : Stack}
    (h : tokens (dispatch depth) ts s =
      .error ⟨.fault (.corruption cause token), s'⟩) :
    ∃ depth' after held,
      Reaches ⟨depth, ts, s⟩
          ⟨depth', token :: after, held⟩ ∧
        Refuses token held cause := by
  induction depth generalizing ts s s' with
  | zero =>
      rcases tokens_eq_error_iff.1 h with
        ⟨_, _, _, _, -, -, hFail⟩
      simp [dispatch] at hFail
  | succ depth ih =>
      rcases tokens_eq_error_iff.1 h with
        ⟨before, t, after, reached, rfl, hRun, hFail⟩
      have hThere := reaches_of_tokens_eq_ok hRun (t :: after)
      rcases dispatch_eq_corruption hFail with
        ⟨rfl, hRefuses⟩ |
          ⟨v, t', rest, rfl, rfl, hText, hInner⟩ |
          ⟨line, rest, scope, hRuns, hInner⟩
      · exact ⟨depth + 1, after, reached, hThere, hRefuses⟩
      · have hSingle :
            tokens (dispatch depth) [t'] rest =
              .error
                ⟨.fault (.corruption cause token), s'⟩ := by
          simp only [tokens, hInner]
        rcases ih hSingle with
          ⟨depth', after', held, hReaches, hRefuses⟩
        exact ⟨depth', after', held,
          (hThere.tail (.evaluate hText)).trans hReaches,
          hRefuses⟩
      · rcases ih hInner with
          ⟨depth', after', held, hReaches, hRefuses⟩
        exact ⟨depth', after', held,
          (hThere.tail (.block hRuns)).trans hReaches,
          hRefuses⟩

theorem refuses_of_program
    {depth : Nat}
    {lines : List Text}
    {s : Stack}
    (h : program lines s depth =
      .error ⟨.fault (.corruption cause token), s'⟩) :
    ∃ depth' after held,
      Reaches ⟨depth, tokensOf lines, s⟩
          ⟨depth', token :: after, held⟩ ∧
        Refuses token held cause := by
  unfold program reported at h
  split at h
  · simp at h
  · exact refuses_of_tokens h

end Run

end StackCalc

------------------------------------------------------------
-- The Gate
------------------------------------------------------------

namespace StackCalc

namespace Run

/- An operator that moves no window is refused nothing. -/
theorem not_corrupts_of_not_rolls
    {op : Operator}
    (hEvaluate : op ≠ .unary .evaluate)
    (hRoll : op ≠ .stack .roll)
    (hRollDown : op ≠ .stack .rollDown)
    (depth : Nat)
    (s : Stack) :
    ¬ (dispatch (depth + 1) op.name s).Corrupts := by
  rintro ⟨cause, token, s', h⟩
  rw [dispatch_name] at h
  rcases perform_eq_corruption h with
    hOp | ⟨_, _, hOp, hRolls, -, -⟩
  · exact hEvaluate hOp
  · cases hRolls with
    | roll => exact hRoll hOp
    | rollDown => exact hRollDown hOp

/- A window is refused if its size is out of bounds. -/
theorem corrupts_rolls_iff
    {op : StackOp}
    {towardTop : Bool}
    (hOp : Rolls op towardTop)
    {s : Stack}
    (hs : s ≠ [])
    (depth : Nat)
    (v : Value) :
    (dispatch (depth + 1) op.name (v :: s)).Corrupts ↔
      ∃ n, v = .integer n ∧ (n < 1 ∨ s.length < n) ∧
        Decimal.isShort n = true := by
  rw [dispatch_rolls hOp hs]
  constructor
  · rintro ⟨cause, token, s', h⟩
    rcases roll_eq_corruption_iff.1 h with
      ⟨n, hValue, hLacks, hShort, -, -⟩
    exact ⟨n, hValue,
      Stack.exists_lacksWindow_iff.1 ⟨cause, hLacks⟩, hShort⟩
  · rintro ⟨n, hValue, hOutside, hShort⟩
    rcases Stack.exists_lacksWindow_iff.2 hOutside with
      ⟨cause, hLacks⟩
    exact ⟨cause, op.name, s, roll_eq_corruption_iff.2
      ⟨n, hValue, hLacks, hShort, rfl, rfl⟩⟩

/- A block that takes too much leaves the stack as it is. -/
theorem dispatch_block_of_lt
    {source : Text}
    {b : Block}
    {s : Stack}
    (hParse : Block.parse source = .ok b)
    (hFew : s.length < b.arity)
    (depth : Nat) :
    dispatch (depth + 1) source s =
      .error
        ⟨.fault (.corruption
          (.tooShort b.arity s.length) source), s⟩ := by
  have hNot : ¬ b.arity ≤ s.length := by
    omega
  have hShort := Block.isShort_arity hParse
  rcases Block.exists_eq_cons_of_parse hParse with ⟨t, rfl⟩
  rw [dispatch_block]
  simp only [applyBlock, hParse, Stack.popMany_natCast,
    if_neg hNot, Stack.complaint_of_isShort hShort]

theorem not_runs_of_lt
    {source line : Text}
    {b : Block}
    {s rest : Stack}
    (hParse : Block.parse source = .ok b)
    (hFew : s.length < b.arity) :
    ¬ Block.Runs source s line rest := by
  rintro ⟨hParse', hArgs, -⟩
  rw [hParse] at hParse'
  rw [← Except.ok.inj hParse', Stack.popMany_natCast,
    if_neg (by omega)] at hArgs
  simp at hArgs

/-
  A block that fails by a complaint of the stack without
  running its line takes more values than there are.
-/
theorem lt_arity_of_corrupts
    {depth : Nat}
    {source : Text}
    {b : Block}
    {s : Stack}
    (hParse : Block.parse source = .ok b)
    (hCorrupts : (dispatch (depth + 1) source s).Corrupts)
    (hIdle : ¬ ∃ line rest, Block.Runs source s line rest) :
    s.length < b.arity := by
  rcases hCorrupts with ⟨cause, token, s', h⟩
  rcases Block.exists_eq_cons_of_parse hParse with ⟨t, rfl⟩
  rw [dispatch_block] at h
  rcases applyBlock_eq_corruption h with
    ⟨b', hParse', hFew, -, -⟩ | ⟨line, rest, -, hRuns, -⟩
  · rw [hParse] at hParse'
    rw [Except.ok.inj hParse']
    exact hFew
  · exact absurd ⟨line, rest, hRuns⟩ hIdle

end Run

namespace Raw

variable {unit : ArrayUnit}

/- What the machine leaves where the stack complains. -/
def Corrupts (r : Except Break Unit × Pile) : Prop :=
  ∃ cause token p,
    r = (.error (.fault (.corruption cause token)), p)

theorem corrupts_of_corrupts_result
    {r : Outcome}
    (h : Corrupts (result r)) :
    r.Corrupts := by
  rcases h with ⟨cause, token, p, h⟩
  cases r with
  | ok s =>
      simp [result] at h
  | error f =>
      rcases f with ⟨e, s⟩
      cases e with
      | fault f =>
          simp only [result, Break.ofStop, Prod.mk.injEq,
            Except.error.injEq, Break.fault.injEq] at h
          rw [h.1]
          exact ⟨cause, token, s, rfl⟩
      | _ =>
          simp [result, Break.ofStop] at h

/- A fault that is left after sorting was there before. -/
theorem eq_fault_of_sorting
    {name : Text}
    {r : Except Break Value}
    {f : Fault}
    (h : sorting name r = .error (.fault f)) :
    r = .error (.fault f) := by
  unfold sorting at h
  split at h
  case h_1 i =>
    split at h
    · simp at h
    · simp at h
  case h_2 =>
    exact h

theorem eq_of_ofFault
    {f f' : Fault}
    (h : Break.ofFault f = .fault f') :
    f = f' := by
  unfold Break.ofFault at h
  split at h
  · simp at h
  · simp at h
  · exact Break.fault.inj h

/- What operators come to is no complaint of the stack. -/
theorem kind_of_carryOut
    {op : BinaryOp}
    {a b : Operand}
    {r : Except Fault Value}
    {f : Fault}
    (hGiven : Binary.combine op a b = some r)
    (h : carryOut unit op a b r = .error (.fault f)) :
    f.kind ≠ .corruption := by
  rcases carryOut_eq_error h with
    ⟨i, -, hBreak⟩ | hSingular | ⟨f', rfl, hBreak⟩
  · exact Break.noConfusion hBreak
  · rw [Break.fault.inj hSingular]
    exact nofun
  · rw [← eq_of_ofFault hBreak.symm]
    exact (Binary.namesIn_combine op a b _ hGiven f' rfl).2

/-
  The operator of a name passes the gate of the machine as
  it should. With too few things it is pushed, and otherwise
  its handler runs, which then never finds too few.
-/
structure IsGated
    (unit : ArrayUnit)
    (depth : Nat)
    (op : Operator)
    (s : Stack) : Prop where
  pushed :
    s.length < op.arity →
      (dispatch unit (depth + 1) op.name).run (pile s) =
        (.ok (), pile (.deferred op.name :: s))
  handled :
    ∀ handle,
      (handlers unit (dispatch unit depth)).lookup
          op.family = some handle →
      op.arity ≤ s.length →
      (dispatch unit (depth + 1) op.name).run (pile s) =
          (handle op.name).run (pile s) ∧
        (op ≠ .unary .evaluate → op ≠ .stack .roll →
          op ≠ .stack .rollDown →
          ¬ Corrupts ((handle op.name).run (pile s)))

/- Only EVAL and moved windows bring complaints up. -/
theorem perform_not_corrupts
    (hUnit : unit.Handles)
    {op : Operator}
    (hEvaluate : op ≠ .unary .evaluate)
    (hRoll : op ≠ .stack .roll)
    (hRollDown : op ≠ .stack .rollDown)
    (depth : Nat)
    (s : Stack) :
    ¬ Corrupts
      ((perform unit (dispatch unit depth) op.family
        op.name).run (pile s)) := by
  rcases run_perform_cases hUnit (dispatch unit depth)
      (Run.dispatch depth) op s with
    hPlain | ⟨v, rest, hOp, -⟩ | ⟨op', r, l, rest, rfl, rfl⟩
  · rw [hPlain, ← Run.dispatch_name]
    intro hCorrupts
    exact Run.not_corrupts_of_not_rolls hEvaluate hRoll
      hRollDown depth s (corrupts_of_corrupts_result hCorrupts)
  · exact absurd hOp hEvaluate
  · rintro ⟨cause, token, p, h⟩
    rw [run_perform_binary] at h
    cases hGiven :
        Binary.combine op' l.operand r.operand with
    | none =>
        simp [hGiven] at h
    | some given =>
        simp only [hGiven] at h
        split at h
        case h_1 v hSorted =>
          simp at h
        case h_2 b hSorted =>
          rw [Except.error.inj (Prod.mk.inj h).1] at hSorted
          exact kind_of_carryOut hGiven
            (eq_fault_of_sorting hSorted) rfl

theorem isGated
    (hUnit : unit.Handles)
    (depth : Nat)
    (op : Operator)
    (s : Stack) :
    IsGated unit depth op s := by
  have hDispatch :
      dispatch unit (depth + 1) op.name =
        perform unit (dispatch unit depth) op.family
          op.name := by
    simp only [dispatch, Operator.ofName?_name]
  refine ⟨?_, ?_⟩
  · intro hFew
    rw [hDispatch, run_perform_of_lt (Run.dispatch depth) hFew,
      Run.perform_of_lt hFew]
    rfl
  · intro handle hHandle hEnough
    have hRun := run_perform_of_le hHandle hEnough
    rw [hDispatch, hRun]
    refine ⟨rfl, ?_⟩
    intro hEvaluate hRoll hRollDown
    rw [← hRun]
    exact perform_not_corrupts hUnit hEvaluate hRoll hRollDown
      depth s

end Raw

namespace Run

/-
  Underflow is out of reach. An operator that finds too few
  values is pushed, and with enough of them only EVAL, ROLL
  and ROLLD can fail by a complaint of the stack: the last
  two for a window of the wrong size. A block does before
  its line runs if it takes more values than there are, and
  then the stack stays as it is. In every run such failures
  come from these windows and blocks. The gate is the same
  in the machine, whose handlers could find too few things
  if it let them run.
-/
theorem corrupts_only_when_refused
    (depth : Nat)
    (s : Stack) :
    (∀ op : Operator, s.length < op.arity →
      dispatch (depth + 1) op.name s =
        .ok (.deferred op.name :: s)) ∧
    (∀ op : Operator, op.arity ≤ s.length →
      op ≠ .unary .evaluate → op ≠ .stack .roll →
      op ≠ .stack .rollDown →
      ¬ (dispatch (depth + 1) op.name s).Corrupts) ∧
    (∀ op, op = StackOp.roll ∨ op = .rollDown →
      op.arity ≤ s.length →
      ((dispatch (depth + 1) op.name s).Corrupts ↔
        ∃ n, s.head? = some (.integer n) ∧
          (n < 1 ∨ (s.length : Int) - 1 < n) ∧
          Decimal.isShort n = true)) ∧
    (∀ source b, Block.parse source = .ok b →
      ((dispatch (depth + 1) source s).Corrupts ∧
          (¬ ∃ line rest, Block.Runs source s line rest) ↔
        s.length < b.arity) ∧
      (s.length < b.arity →
        dispatch (depth + 1) source s =
          .error
            ⟨.fault (.corruption
              (.tooShort b.arity s.length) source), s⟩)) ∧
    (∀ ts cause token s',
      tokens (dispatch depth) ts s =
          .error ⟨.fault (.corruption cause token), s'⟩ →
        ∃ depth' after held,
          Reaches ⟨depth, ts, s⟩
              ⟨depth', token :: after, held⟩ ∧
            Refuses token held cause) ∧
    (∀ lines cause token s',
      program lines s depth =
          .error ⟨.fault (.corruption cause token), s'⟩ →
        ∃ depth' after held,
          Reaches ⟨depth, tokensOf lines, s⟩
              ⟨depth', token :: after, held⟩ ∧
            Refuses token held cause) ∧
    ∀ (unit : Raw.ArrayUnit) op, unit.Handles →
      Raw.IsGated unit depth op s := by
  refine ⟨?_, ?_, ?_, ?_, ?_, ?_, ?_⟩
  · intro op hFew
    rw [dispatch_name, perform_of_lt hFew]
  · intro op _ hEvaluate hRoll hRollDown
    exact not_corrupts_of_not_rolls hEvaluate hRoll hRollDown
      depth s
  · intro op hOp hEnough
    have hRolls : ∃ towardTop, Rolls op towardTop := by
      rcases hOp with rfl | rfl
      · exact ⟨true, .roll⟩
      · exact ⟨false, .rollDown⟩
    have hTwo : 2 ≤ s.length := by
      rcases hOp with rfl | rfl
      · exact hEnough
      · exact hEnough
    rcases hRolls with ⟨towardTop, hRolls⟩
    match s, hTwo with
    | v :: w :: rest, _ =>
        rw [corrupts_rolls_iff hRolls (List.cons_ne_nil w rest)]
        simp
  · intro source b hParse
    refine ⟨⟨?_, ?_⟩, ?_⟩
    · rintro ⟨hCorrupts, hIdle⟩
      exact lt_arity_of_corrupts hParse hCorrupts hIdle
    · intro hFew
      refine ⟨⟨_, _, _, dispatch_block_of_lt hParse hFew
        depth⟩, ?_⟩
      rintro ⟨line, rest, hRuns⟩
      exact not_runs_of_lt hParse hFew hRuns
    · intro hFew
      exact dispatch_block_of_lt hParse hFew depth
  · intro ts cause token s' h
    exact refuses_of_tokens h
  · intro lines cause token s' h
    exact refuses_of_program h
  · intro unit op hUnit
    exact Raw.isGated hUnit depth op s

/-
  Above a five: `+` is pushed, also by the machine, an empty
  window is refused and so are two values for a block. Under
  EVAL a window of five is refused in a program that pushes
  a single value.
-/
theorem corrupts_only_when_refused_five :
    dispatch 1 BinaryOp.add.name [.integer 5] =
        .ok [.deferred BinaryOp.add.name, .integer 5] ∧
      ¬ (dispatch 1 BinaryOp.add.name
        [.boolean true, .integer 5]).Corrupts ∧
      (dispatch 1 StackOp.rollDown.name
        [.integer 0, .integer 5]).Corrupts ∧
      dispatch 1 (Block.written 2 "x1".toList)
          [.integer 5] =
        .error
          ⟨.fault (.corruption (.tooShort 2 1)
            (Block.written 2 "x1".toList)), [.integer 5]⟩ ∧
      program ["5 'ROLL EVAL".toList] [.integer 7] =
        .error
          ⟨.fault (.corruption (.tooShort 5 1)
            StackOp.roll.name), [.integer 7]⟩ ∧
      (∃ depth after held,
        Reaches
            ⟨maxDepth, tokensOf ["5 'ROLL EVAL".toList],
              [.integer 7]⟩
            ⟨depth, StackOp.roll.name :: after, held⟩ ∧
          Refuses StackOp.roll.name held (.tooShort 5 1)) ∧
      (Raw.dispatch Raw.standard 1 BinaryOp.add.name).run
          (Raw.pile [.integer 5]) =
        (.ok (), Raw.pile
          [.deferred BinaryOp.add.name, .integer 5]) := by
  have hRoll :
      dispatch 399 StackOp.roll.name [.integer 5, .integer 7] =
        .error
          ⟨.fault (.corruption (.tooShort 5 1)
            StackOp.roll.name), [.integer 7]⟩ := by
    rw [dispatch_rolls .roll (List.cons_ne_nil _ _)]
    exact roll_eq_corruption_iff.2
      ⟨5, rfl, .tooLong (by decide) (by decide),
        Decimal.isShort_of_fits (by decide), rfl, rfl⟩
  have hRun :
      program ["5 'ROLL EVAL".toList] [.integer 7] =
        .error
          ⟨.fault (.corruption (.tooShort 5 1)
            StackOp.roll.name), [.integer 7]⟩ := by
    have hTokens :
        tokensOf ["5 'ROLL EVAL".toList] =
          ["5".toList, "'ROLL".toList, "EVAL".toList] :=
      rfl
    have hFive :
        dispatch maxDepth "5".toList [.integer 7] =
          .ok [.integer 5, .integer 7] :=
      rfl
    have hQuote :
        dispatch maxDepth "'ROLL".toList
            [.integer 5, .integer 7] =
          .ok
            [ .deferred StackOp.roll.name, .integer 5,
              .integer 7 ] :=
      rfl
    have hEvaluate :
        dispatch maxDepth "EVAL".toList
            [ .deferred StackOp.roll.name, .integer 5,
              .integer 7 ] =
          dispatch 399 StackOp.roll.name
            [.integer 5, .integer 7] := by
      refine (dispatch_name (.unary .evaluate) 399 _).trans ?_
      simp only [perform, unary, evaluate, Value.render]
    rw [program, hTokens]
    simp only [tokens, hFive, hQuote, hEvaluate, hRoll,
      reported]
  have hParse :=
    Block.parse_written (n := 2)
      (Decimal.isShort_of_fits (by decide)) "x1".toList
  have hOne := corrupts_only_when_refused 0 [.integer 5]
  have hTwo :=
    corrupts_only_when_refused 0 [.boolean true, .integer 5]
  have hWindow :=
    corrupts_only_when_refused 0 [.integer 0, .integer 5]
  have hProgram :=
    corrupts_only_when_refused maxDepth [.integer 7]
  refine ⟨?_, ?_, ?_, ?_, hRun, ?_, ?_⟩
  · exact hOne.1 (.binary .add) (by decide)
  · exact hTwo.2.1 (.binary .add) (by decide) (by decide)
      (by decide) (by decide)
  · exact (hWindow.2.2.1 .rollDown (.inr rfl) (by decide)).2
      ⟨0, rfl, .inl (by decide),
        Decimal.isShort_of_fits (by decide)⟩
  · exact (hOne.2.2.2.1 _ _ hParse).2 (by decide)
  · exact hProgram.2.2.2.2.2.1 _ _ _ _ hRun
  · exact (hOne.2.2.2.2.2.2 Raw.standard (.binary .add)
      Raw.handles_standard).pushed (by decide)

end Run

end StackCalc
