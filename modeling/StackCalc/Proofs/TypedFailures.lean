import StackCalc.Proofs.RawAgreement

/-
  Whatever a program is and whatever operators on arrays
  come to, a run on values ends with values, or breaks off
  with a fault of some kind or for a number with too many
  digits. No other incident gets out. Of the array unit it
  is only known that it can make, list and transpose arrays
  and why it refuses to work out an operator.

  Main declarations:
    * `Raw.Break.kind?`
    * `Raw.OnlyRefuses`
    * `Raw.Expected`
    * `Raw.Orderly`
    * `Raw.dispatch_orderly`
    * `Raw.EndsTyped`
    * `Raw.program_endsTyped`
    * `Raw.program_breaks_typed`
-/

------------------------------------------------------------
-- Orderly Runs
------------------------------------------------------------

namespace StackCalc

namespace Incident

theorem kindOf_ne_runtime
    {group : IncidentClass}
    (h : group = .arithmetic ∨ group = .argument)
    (message : Text) :
    kindOf group message ≠ .runtime := by
  rcases h with rfl | rfl
  · simp [kindOf]
  · cases hShapes : isAboutShapes message with
    | _ =>
        simp [kindOf, hShapes]

end Incident

namespace Raw

/- The kind of fault that a break is, unless it is none. -/
def Break.kind? : Break → Option FaultKind
  | fault f => some f.kind
  | sorted c => some c.kind
  | incident _ => none

/- A break that is a fault of some particular kind. -/
def Break.IsTyped (b : Break) : Prop :=
  ∃ k, b.kind? = some k ∧ k ≠ .runtime

theorem Break.isTyped_fault
    (f : Fault) :
    IsTyped (.fault f) := by
  refine ⟨f.kind, rfl, ?_⟩
  cases f with
  | _ =>
      simp [Fault.kind]

theorem Break.not_isTyped_incident
    (i : Incident) :
    ¬ IsTyped (.incident i) := by
  rintro ⟨k, hKind, -⟩
  simp [kind?] at hKind

/- Incidents of arithmetic or of arguments are sorted. -/
theorem Break.isTyped_classify
    {i : Incident}
    (h : i.group = .arithmetic ∨ i.group = .argument)
    (token : Option Text) :
    IsTyped (.sorted (i.classify token)) :=
  ⟨_, rfl, Incident.kindOf_ne_runtime h _⟩

/-
  Breaks that may come up inside of a program. Being nested
  too deeply is not yet a fault there.
-/
inductive Expected : Break → Prop
  | typed
      {b : Break}
      (h : b.IsTyped) :
      Expected b
  | tooManyDigits :
      Expected (.incident .tooManyDigits)
  | tooDeep :
      Expected (.incident .tooDeep)

/- Only values are left, and breaks are expected. -/
inductive Orderly : Except Break Unit × Pile → Prop
  | done
      (s : Stack) :
      Orderly (.ok (), pile s)
  | broken
      {b : Break}
      (h : Expected b)
      (s : Stack) :
      Orderly (.error b, pile s)

theorem expected_ofStop
    (e : Stop) :
    Expected (.ofStop e) := by
  cases e with
  | fault f =>
      exact .typed (Break.isTyped_fault f)
  | tooManyDigits =>
      exact .tooManyDigits
  | outOfDepth =>
      exact .tooDeep

theorem orderly_result
    (r : Outcome) :
    Orderly (result r) := by
  cases r with
  | ok s =>
      exact .done s
  | error f =>
      exact .broken (expected_ofStop f.cause) f.stack

end Raw

end StackCalc

------------------------------------------------------------
-- Binary Operators
------------------------------------------------------------

namespace StackCalc

namespace Raw

/-
  An array unit refuses to work only for its arithmetic or
  its arguments.
-/
def OnlyRefuses (unit : ArrayUnit) : Prop :=
  ∀ op a b i, unit.work op a b = .error i →
    i.group = .arithmetic ∨ i.group = .argument

/- Breaks that are faults once they have been sorted. -/
inductive Sortable : Break → Prop
  | fault
      (f : Fault) :
      Sortable (.fault f)
  | incident
      {i : Incident}
      (h : i.group = .arithmetic ∨ i.group = .argument) :
      Sortable (.incident i)

theorem sortable_ofFault
    (f : Fault) :
    Sortable (.ofFault f) := by
  unfold Break.ofFault
  split
  · exact .incident (.inl rfl)
  · exact .incident (.inr rfl)
  · exact .fault _

variable {unit : ArrayUnit}

theorem sortable_of_carryOut
    (hUnit : OnlyRefuses unit)
    {op : BinaryOp}
    {a b : Operand}
    {r : Except Fault Value}
    {c : Break}
    (h : carryOut unit op a b r = .error c) :
    Sortable c := by
  rcases carryOut_eq_error h with
    ⟨i, hWork, rfl⟩ | rfl | ⟨f, -, rfl⟩
  · exact .incident (hUnit op a b i hWork)
  · exact .fault _
  · exact sortable_ofFault f

/- What an operator breaks off with is sorted. -/
theorem expected_of_sorting
    (hUnit : OnlyRefuses unit)
    {op : BinaryOp}
    {a b : Operand}
    {r : Except Fault Value}
    {c : Break}
    (h : sorting op.name (carryOut unit op a b r) =
      .error c) :
    Expected c := by
  cases hCarried : carryOut unit op a b r with
  | ok v =>
      rw [hCarried] at h
      simp [sorting] at h
  | error d =>
      rw [hCarried] at h
      rcases sortable_of_carryOut hUnit hCarried with
        ⟨f⟩ | ⟨hGroup⟩
      · rw [← Except.error.inj h]
        exact .typed (Break.isTyped_fault f)
      · rw [sorting, if_pos hGroup] at h
        rw [← Except.error.inj h]
        exact .typed (Break.isTyped_classify hGroup _)

/- Arrays worked out by the rules refuse for arithmetic. -/
theorem onlyRefuses_standard :
    OnlyRefuses standard := by
  intro op a b i h
  simp only [standard] at h
  split at h
  · simp at h
  · simp at h
  · rw [← Except.error.inj h]
    exact .inl rfl

end Raw

end StackCalc

------------------------------------------------------------
-- Tokens
------------------------------------------------------------

namespace StackCalc

namespace Raw

variable {unit : ArrayUnit} {step : Text → Act Unit}

/- Tokens are carried out on values in an orderly way. -/
def StepOrderly (step : Text → Act Unit) : Prop :=
  ∀ t s, Orderly ((step t).run (pile s))

theorem perform_orderly
    (hHandles : unit.Handles)
    (hUnit : OnlyRefuses unit)
    (hStep : StepOrderly step)
    (op : Operator)
    (s : Stack) :
    Orderly
      ((perform unit step op.family op.name).run
        (pile s)) := by
  rcases run_perform_cases hHandles step (fun _ s => .ok s)
      op s with
    hPlain | ⟨v, rest, rfl, rfl⟩ | ⟨op', r, l, rest, rfl, rfl⟩
  · rw [hPlain]
    exact orderly_result _
  · rw [run_perform_evaluate, run_evaluate hHandles]
    cases v.render with
    | none =>
        exact .broken .tooManyDigits rest
    | some t =>
        exact hStep t rest
  · rw [run_perform_binary]
    cases Binary.combine op' l.operand r.operand with
    | none =>
        exact .broken (.typed (Break.isTyped_fault _)) rest
    | some given =>
        simp only
        split
        case h_1 v hSorted =>
          exact .done (v :: rest)
        case h_2 b hSorted =>
          exact .broken (expected_of_sorting hUnit hSorted)
            rest

theorem tokens_orderly
    (hStep : StepOrderly step)
    (ts : List Text)
    (s : Stack) :
    Orderly ((tokens step ts).run (pile s)) := by
  induction ts generalizing s with
  | nil =>
      exact .done s
  | cons t ts ih =>
      rw [tokens, run_bind]
      have hFirst := hStep t s
      revert hFirst
      generalize (step t).run (pile s) = left
      rintro (⟨s'⟩ | ⟨hExpected, s'⟩)
      · exact ih s'
      · exact .broken hExpected s'

theorem applyBlock_orderly
    (hHandles : unit.Handles)
    (hStep : StepOrderly step)
    (source : Text)
    (s : Stack) :
    Orderly ((applyBlock unit step source).run (pile s)) := by
  rcases run_applyBlock_cases hHandles step
      (fun _ s => .ok s) source s with
    hPlain | ⟨line, rest, hBlock, -⟩
  · rw [hPlain]
    exact orderly_result _
  · rw [hBlock]
    have hLine := tokens_orderly hStep (Token.split line) []
    revert hLine
    rw [pile_nil]
    generalize (tokens step (Token.split line)).run [] = left
    rintro (⟨scope⟩ | ⟨hExpected, scope⟩)
    · simp only [run_pushAll_reverse]
      exact .done (scope ++ rest)
    · exact .broken hExpected rest

/- Carrying out a token on values is orderly. -/
theorem dispatch_orderly
    (hHandles : unit.Handles)
    (hUnit : OnlyRefuses unit)
    (depth : Nat) :
    StepOrderly (dispatch unit depth) := by
  induction depth with
  | zero =>
      intro t s
      exact .broken .tooDeep s
  | succ depth ih =>
      intro t s
      rcases run_dispatch_cases hHandles depth t s with
        ⟨op, hRaw, -⟩ | ⟨hRaw, -⟩ | hPlain
      · rw [hRaw]
        exact perform_orderly hHandles hUnit ih op s
      · rw [hRaw]
        exact applyBlock_orderly hHandles ih t s
      · rw [hPlain]
        exact orderly_result _

end Raw

end StackCalc

------------------------------------------------------------
-- Programs
------------------------------------------------------------

namespace StackCalc

namespace Raw

/-
  A run that ends with values, or breaks off with a fault
  of some kind or for a number with too many digits.
-/
inductive EndsTyped : Except Break Unit × Pile → Prop
  | done
      (s : Stack) :
      EndsTyped (.ok (), pile s)
  | typed
      {b : Break}
      (h : b.IsTyped)
      (s : Stack) :
      EndsTyped (.error b, pile s)
  | tooManyDigits
      (s : Stack) :
      EndsTyped (.error (.incident .tooManyDigits), pile s)

/- Once nesting is reported only typed failures are left. -/
theorem endsTyped_reported
    {r : Except Break Unit × Pile}
    (h : Orderly r) :
    EndsTyped (reported r) := by
  cases h with
  | done s =>
      exact .done s
  | @broken b hExpected s =>
      cases hExpected with
      | typed hKind =>
          cases b with
          | fault f =>
              exact .typed hKind s
          | sorted c =>
              exact .typed hKind s
          | incident i =>
              exact absurd hKind (Break.not_isTyped_incident i)
      | tooManyDigits =>
          exact .tooManyDigits s
      | tooDeep =>
          exact .typed (Break.isTyped_fault .tooDeep) s

theorem program_endsTyped
    {unit : ArrayUnit}
    (hHandles : unit.Handles)
    (hUnit : OnlyRefuses unit)
    (depth : Nat)
    (lines : List Text)
    (s : Stack) :
    EndsTyped ((program unit depth lines).run (pile s)) :=
  endsTyped_reported
    (tokens_orderly (dispatch_orderly hHandles hUnit depth)
      (Run.tokensOf lines) s)

theorem not_endsTyped_tooDeep
    (s : Stack) :
    ¬ EndsTyped (.error (.incident .tooDeep), pile s) := by
  intro h
  generalize hBreak : Break.incident .tooDeep = b at h
  generalize pile s = p at h
  cases h with
  | typed hKind s =>
      rw [← hBreak] at hKind
      exact Break.not_isTyped_incident _ hKind
  | tooManyDigits s =>
      simp [Incident.tooDeep, Incident.tooManyDigits]
        at hBreak

/- What ends typed shows no outcome out of depth. -/
theorem outcome_of_endsTyped
    {p : Except Break Unit × Pile}
    {r : Outcome}
    (hTyped : EndsTyped p)
    (hShows : Shows p r) :
    (∃ s, r = .ok s) ∨
      (∃ f s, r = .error ⟨.fault f, s⟩) ∨
      ∃ s, r = .error ⟨.tooManyDigits, s⟩ := by
  cases hShows with
  | done s =>
      exact .inl ⟨s, rfl⟩
  | @broken b e hTells s =>
      cases e with
      | fault f =>
          exact .inr (.inl ⟨f, s, rfl⟩)
      | tooManyDigits =>
          exact .inr (.inr ⟨s, rfl⟩)
      | outOfDepth =>
          cases hTells with
          | same =>
              exact absurd hTyped (not_endsTyped_tooDeep s)

/-
  Only typed failures leave a program. With any array unit
  that handles all arrays and refuses to work only for its
  arithmetic or its arguments, a run on values ends with
  values, or it breaks off with a fault or for a number with
  too many digits. Arrays worked out by the rules are such a
  unit. With them the machine does what `Run` does, which
  thus ends in the same ways.
-/
theorem program_breaks_typed
    {unit : ArrayUnit}
    (hHandles : unit.Handles)
    (hUnit : OnlyRefuses unit)
    (depth : Nat)
    (lines : List Text)
    (s : Stack) :
    EndsTyped ((program unit depth lines).run (pile s)) ∧
      standard.Handles ∧ OnlyRefuses standard ∧
      Shows ((program standard depth lines).run (pile s))
        (Run.program lines s depth) ∧
      ((∃ s', Run.program lines s depth = .ok s') ∨
        (∃ f s',
          Run.program lines s depth =
            .error ⟨.fault f, s'⟩) ∨
        ∃ s',
          Run.program lines s depth =
            .error ⟨.tooManyDigits, s'⟩) := by
  have hShows := program_shows depth lines s
  have hStandard :=
    program_endsTyped handles_standard onlyRefuses_standard
      depth lines s
  exact ⟨program_endsTyped hHandles hUnit depth lines s,
    handles_standard, onlyRefuses_standard, hShows,
    outcome_of_endsTyped hStandard hShows⟩

/-
  A zero vector times an integer that cannot be stored: the
  array unit refuses, which is a fault of arithmetic at the
  operator.
-/
theorem program_breaks_typed_times :
    standard.Handles ∧ OnlyRefuses standard ∧
      (program standard Run.maxDepth
          ["9223372036854775808 *".toList]).run
          (pile [.vector (.ints [0])]) =
        (.error (.sorted ⟨.arithmetic, "beyond range".toList,
          some BinaryOp.multiply.name⟩), pile []) ∧
      Shows
        (.error (.sorted ⟨.arithmetic, "beyond range".toList,
          some BinaryOp.multiply.name⟩), pile [])
        (Run.program ["9223372036854775808 *".toList]
          [.vector (.ints [0])]) := by
  have hRun :
      (program standard Run.maxDepth
          ["9223372036854775808 *".toList]).run
          (pile [.vector (.ints [0])]) =
        (.error (.sorted ⟨.arithmetic, "beyond range".toList,
          some BinaryOp.multiply.name⟩), pile []) :=
    rfl
  rcases program_breaks_typed handles_standard
      onlyRefuses_standard Run.maxDepth
      ["9223372036854775808 *".toList]
      [.vector (.ints [0])] with
    ⟨-, hHandles, hUnit, hShows, -⟩
  rw [hRun] at hShows
  exact ⟨hHandles, hUnit, hRun, hShows⟩

end Raw

end StackCalc
