import StackCalc.Proofs.FaultTokens
import StackCalc.Proofs.RawSteps

/-
  The machine runs programs as `Run` does.

  With an array unit that works by the rules, it ends with
  the same values and breaks off for the same reason. Only
  faults without a message of their own are told by the
  incident that they were sorted from.

  Main declarations:
    * `Raw.TellsOf`
    * `Raw.Shows`
    * `Raw.standard`
    * `Raw.dispatch_shows`
    * `Raw.program_shows`
-/

------------------------------------------------------------
-- Agreement
------------------------------------------------------------

namespace StackCalc

namespace Raw

/-
  A break tells of a stop if it is the same, or an incident
  sorted into its kind and at its token where the fault has
  no message of its own.
-/
inductive TellsOf : Break → Stop → Prop
  | same
      (e : Stop) :
      TellsOf (.ofStop e) e
  | sorted
      {c : Classified}
      {f : Fault}
      (hKind : c.kind = f.kind)
      (hToken : c.token = f.token)
      (hMessage : f.message? = none) :
      TellsOf (.sorted c) (.fault f)

/- What the machine leaves shows an outcome. -/
inductive Shows :
    Except Break Unit × Pile → Outcome → Prop
  | done
      (s : Stack) :
      Shows (.ok (), pile s) (.ok s)
  | broken
      {b : Break}
      {e : Stop}
      (h : TellsOf b e)
      (s : Stack) :
      Shows (.error b, pile s) (.error ⟨e, s⟩)

theorem shows_result
    (r : Outcome) :
    Shows (result r) r := by
  cases r with
  | ok s =>
      exact .done s
  | error f =>
      exact .broken (.same f.cause) f.stack

end Raw

end StackCalc

------------------------------------------------------------
-- Binary Operators
------------------------------------------------------------

namespace StackCalc

namespace Raw

/- The array unit that works by the rules. -/
def standard : ArrayUnit where
  make v := .ok v
  list v := .ok v
  transpose m := .ok m.transpose
  work op a b :=
    match Binary.combine op a b with
    | some (.ok v) => .ok (some v)
    | some (.error (.arithmetic .singular _)) => .ok none
    | _ => .error .beyondRange

theorem handles_standard :
    standard.Handles :=
  ⟨fun _ => rfl, fun _ => rfl, fun _ => rfl⟩

/- With it operators come to what the rules say. -/
theorem carryOut_standard
    {op : BinaryOp}
    {a b : Operand}
    {r : Except Fault Value}
    (h : Binary.combine op a b = some r) :
    carryOut standard op a b r = r.mapError .ofFault := by
  unfold carryOut
  split
  case isTrue =>
    cases r with
    | ok v =>
        simp only [standard, h]
        rfl
    | error f =>
        have hToken : f.token = some op.name :=
          (Binary.namesIn_combine op a b _ h f rfl).1
        simp only
        split
        case isTrue hUnit =>
          unfold Fault.isOfUnit at hUnit
          split at hUnit
          case h_1 token =>
            have hOwn : token = some op.name := hToken
            simp only [standard, h, worked, hOwn]
            rfl
          case h_2 token =>
            simp only [standard, h, worked]
            rfl
          case h_3 =>
            simp at hUnit
        case isFalse =>
          rfl
  case isFalse =>
    rfl

/- A fault that came up as an incident is sorted back. -/
theorem tellsOf_sorting
    {op : BinaryOp}
    {f : Fault}
    (hToken : f.token = some op.name) :
    ∃ b, sorting op.name (.error (.ofFault f)) = .error b ∧
      TellsOf b (.fault f) := by
  unfold Break.ofFault
  split
  case h_1 token =>
    exact ⟨_, rfl, .sorted rfl hToken.symm rfl⟩
  case h_2 name =>
    have hKind :
        (Incident.tooManyDigits.classify none).kind =
          .typing := by
      decide
    exact ⟨_, rfl, .sorted hKind hToken.symm rfl⟩
  case h_3 =>
    exact ⟨_, rfl, .same (.fault f)⟩

variable {step : Text → Act Unit}
variable {runStep : Text → Stack → Outcome}

theorem perform_binary_shows
    (op : BinaryOp)
    (l r : Value)
    (s : Stack) :
    Shows
      ((perform standard step (Operator.binary op).family
        (Operator.binary op).name).run (pile (r :: l :: s)))
      (Run.binary op l r s) := by
  rw [run_perform_binary, Run.binary, Binary.apply]
  cases hGiven : Binary.combine op l.operand r.operand with
  | none =>
      exact .broken (.same (.fault _)) s
  | some given =>
      simp only [carryOut_standard hGiven]
      cases given with
      | ok v =>
          exact .done (v :: s)
      | error f =>
          have hToken : f.token = some op.name :=
            (Binary.namesIn_combine op _ _ _ hGiven f rfl).1
          rcases tellsOf_sorting hToken with
            ⟨b, hSorted, hTells⟩
          simp only [mapError_error, hSorted]
          exact .broken hTells s

end Raw

end StackCalc

------------------------------------------------------------
-- Tokens
------------------------------------------------------------

namespace StackCalc

namespace Raw

variable {step : Text → Act Unit}
variable {runStep : Text → Stack → Outcome}

/- The machine carries tokens out as `runStep` does. -/
def StepShows
    (step : Text → Act Unit)
    (runStep : Text → Stack → Outcome) : Prop :=
  ∀ t s, Shows ((step t).run (pile s)) (runStep t s)

theorem perform_shows
    (hStep : StepShows step runStep)
    (op : Operator)
    (s : Stack) :
    Shows
      ((perform standard step op.family op.name).run (pile s))
      (Run.perform runStep op s) := by
  rcases run_perform_cases handles_standard step runStep op s
    with
    hPlain | ⟨v, rest, rfl, rfl⟩ | ⟨op', r, l, rest, rfl, rfl⟩
  · rw [hPlain]
    exact shows_result _
  · rw [run_perform_evaluate, run_evaluate handles_standard,
      Run.perform, Run.unary, Run.evaluate]
    cases v.render with
    | none =>
        exact .broken (.same .tooManyDigits) rest
    | some t =>
        exact hStep t rest
  · exact perform_binary_shows op' l r rest

theorem tokens_shows
    (hStep : StepShows step runStep)
    (ts : List Text)
    (s : Stack) :
    Shows ((tokens step ts).run (pile s))
      (Run.tokens runStep ts s) := by
  induction ts generalizing s with
  | nil =>
      exact .done s
  | cons t ts ih =>
      rw [tokens, run_bind, Run.tokens]
      have hFirst := hStep t s
      revert hFirst
      generalize (step t).run (pile s) = left
      generalize runStep t s = right
      rintro (⟨s'⟩ | ⟨hTells, s'⟩)
      · exact ih s'
      · exact .broken hTells s'

theorem applyBlock_shows
    (hStep : StepShows step runStep)
    (source : Text)
    (s : Stack) :
    Shows ((applyBlock standard step source).run (pile s))
      (Run.applyBlock runStep source s) := by
  rcases run_applyBlock_cases handles_standard step runStep
      source s with
    hPlain | ⟨line, rest, hBlock, hRun⟩
  · rw [hPlain]
    exact shows_result _
  · rw [hBlock, hRun]
    have hLine := tokens_shows hStep (Token.split line) []
    revert hLine
    rw [pile_nil]
    generalize (tokens step (Token.split line)).run [] = left
    generalize
      Run.tokens runStep (Token.split line) [] = right
    rintro (⟨scope⟩ | ⟨hTells, scope⟩)
    · simp only [run_pushAll_reverse]
      exact .done (scope ++ rest)
    · exact .broken hTells rest

/- A token leaves what `Run` says it does. -/
theorem dispatch_shows
    (depth : Nat) :
    StepShows (dispatch standard depth)
      (Run.dispatch depth) := by
  induction depth with
  | zero =>
      intro t s
      exact .broken (.same .outOfDepth) s
  | succ depth ih =>
      intro t s
      rcases run_dispatch_cases handles_standard depth t s with
        ⟨op, hRaw, hRun⟩ | ⟨hRaw, hRun⟩ | hPlain
      · rw [hRaw, hRun]
        exact perform_shows ih op s
      · rw [hRaw, hRun]
        exact applyBlock_shows ih t s
      · rw [hPlain]
        exact shows_result _

/- A program leaves what `Run` says it does. -/
theorem program_shows
    (depth : Nat)
    (lines : List Text)
    (s : Stack) :
    Shows ((program standard depth lines).run (pile s))
      (Run.program lines s depth) := by
  have hTokens :=
    tokens_shows (dispatch_shows depth) (Run.tokensOf lines) s
  simp only [program, Run.program]
  revert hTokens
  generalize
    (tokens (dispatch standard depth)
      (Run.tokensOf lines)).run (pile s) = left
  generalize
    Run.tokens (Run.dispatch depth) (Run.tokensOf lines) s =
      right
  rintro (⟨s'⟩ | @⟨b, e, hTells, s'⟩)
  · exact .done s'
  · cases hTells with
    | same =>
        cases e with
        | fault f =>
            exact .broken (.same (.fault f)) s'
        | tooManyDigits =>
            exact .broken (.same .tooManyDigits) s'
        | outOfDepth =>
            exact .broken (.same (.fault .tooDeep)) s'
    | sorted hKind hToken hMessage =>
        exact .broken (.sorted hKind hToken hMessage) s'

end Raw

end StackCalc
