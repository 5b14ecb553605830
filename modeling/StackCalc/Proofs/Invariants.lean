import StackCalc.Proofs.InnerRuns

/-
  Properties that values keep in a run.

  A property of values may depend on one of texts: texts
  become values when they are carried out, and values
  become texts when they are evaluated or put into the
  line of a block. `Run.Invariant` lists what such a pair
  must stand. Every token then keeps it, and so do whole
  runs with all runs inside of them, and sessions.

  Main declarations:
    * `Run.Invariant`
    * `Run.Invariant.dispatch_keeps`
    * `Run.Invariant.of_reaches`
    * `Run.Invariant.of_session`
-/

------------------------------------------------------------
-- Properties Of Values And Texts
------------------------------------------------------------

namespace StackCalc

namespace Run

/-
  A property `P` of values and a property `T` of texts that
  running programs keeps: what each kind of token makes of
  values and texts with the properties has them again.
-/
structure Invariant
    (P : Value → Prop)
    (T : Text → Prop) : Prop where
  boolean :
    ∀ b, P (.boolean b)
  integer :
    ∀ z, P (.integer z)
  transpose :
    ∀ m, P (.matrix m) → P (.matrix m.transpose)
  binary :
    ∀ {op l r v},
      Binary.apply op l r = .ok v → P l → P r → P v
  name :
    ∀ op : Operator, T op.name
  unquoted :
    ∀ {t}, T ('\'' :: t) → T t
  deferred :
    ∀ {t}, T t →
      Operator.isName t = true ∨ t.head? = some '{' →
      P (.deferred t)
  literal :
    ∀ {t v}, Literal.parse t = .ok v → T t → P v
  written :
    ∀ {v t}, v.render = some t → P v → T t
  line :
    ∀ {source line s rest},
      Block.Runs source s line rest → T source →
      (∀ v ∈ s, P v) → ∀ t ∈ Token.split line, T t

variable {P : Value → Prop} {T : Text → Prop}

/- All values that an outcome gives have a property. -/
def Yields
    (P : Value → Prop)
    (r : Outcome) : Prop :=
  ∀ s, r = .ok s → ∀ v ∈ s, P v

@[simp] theorem yields_ok_iff
    {s : Stack} :
    Yields P (.ok s) ↔ ∀ v ∈ s, P v := by
  simp [Yields]

@[simp] theorem yields_error
    (f : Failure) :
    Yields P (.error f) := by
  simp [Yields]

@[simp] theorem yields_failing
    (f : Fault)
    (s : Stack) :
    Yields P (failing f s) :=
  yields_error _

/- A step that keeps the properties. -/
def Keeps
    (P : Value → Prop)
    (T : Text → Prop)
    (step : Text → Stack → Outcome) : Prop :=
  ∀ {t s}, T t → (∀ v ∈ s, P v) → Yields P (step t s)

end Run

end StackCalc

------------------------------------------------------------
-- Operators
------------------------------------------------------------

namespace StackCalc

namespace Stack

/- Moving a window brings in no values. -/
theorem mem_of_mem_rotateTop
    {size : Nat}
    {towardTop : Bool}
    {s : Stack}
    {v : Value}
    (h : v ∈ rotateTop size towardTop s) :
    v ∈ s := by
  unfold rotateTop List.rotateRight List.rotateLeft at h
  grind

/- A window that the stack holds is moved. -/
theorem eq_rotateTop_of_rotateWindow
    {size : Int}
    {towardTop : Bool}
    {token : Text}
    {s s' : Stack}
    (h : rotateWindow size towardTop token s = .ok s') :
    s' = rotateTop size.toNat towardTop s := by
  unfold rotateWindow require at h
  split at h
  · simp at h
  · split at h
    · simp at h
    · rename_i s₁ hRequire
      split at hRequire
      · rw [← Except.ok.inj h, ← Except.ok.inj hRequire]
      · simp at hRequire

end Stack

namespace Run

variable
  {P : Value → Prop}
  {T : Text → Prop}
  {step : Text → Stack → Outcome}

namespace Invariant

theorem evaluate_yields
    (hInv : Invariant P T)
    (hStep : Keeps P T step)
    {v : Value}
    {rest : Stack}
    (hv : P v)
    (hRest : ∀ u ∈ rest, P u) :
    Yields P (evaluate step v rest) := by
  unfold evaluate
  split
  · rename_i t hText
    exact hStep (hInv.written hText hv) hRest
  · exact yields_error _

theorem unary_yields
    (hInv : Invariant P T)
    (hStep : Keeps P T step)
    (op : UnaryOp)
    {v : Value}
    {rest : Stack}
    (hv : P v)
    (hRest : ∀ u ∈ rest, P u) :
    Yields P (unary step op v rest) := by
  unfold unary
  split
  · simpa using ⟨hInv.boolean _, hRest⟩
  · exact yields_failing _ _
  · simpa using ⟨hInv.integer _, hRest⟩
  · exact yields_failing _ _
  · simpa using ⟨hInv.transpose _ hv, hRest⟩
  · exact yields_failing _ _
  · exact hInv.evaluate_yields hStep hv hRest

theorem binary_yields
    (hInv : Invariant P T)
    (op : BinaryOp)
    {l r : Value}
    {rest : Stack}
    (hl : P l)
    (hr : P r)
    (hRest : ∀ u ∈ rest, P u) :
    Yields P (Run.binary op l r rest) := by
  unfold Run.binary
  split
  · rename_i v hApply
    simpa using ⟨hInv.binary hApply hl hr, hRest⟩
  · exact yields_failing _ _

theorem roll_yields
    (op : StackOp)
    (towardTop : Bool)
    (size : Value)
    {rest : Stack}
    (hRest : ∀ u ∈ rest, P u) :
    Yields P (roll op towardTop size rest) := by
  unfold roll
  split
  · split
    · rename_i s' hRotate
      rw [yields_ok_iff]
      rw [Stack.eq_rotateTop_of_rotateWindow hRotate]
      intro v hv
      exact hRest v (Stack.mem_of_mem_rotateTop hv)
    · exact yields_error _
  · exact yields_failing _ _

theorem choose_yields
    (condition : Value)
    {onFalse onTrue : Value}
    {rest : Stack}
    (hFalse : P onFalse)
    (hTrue : P onTrue)
    (hRest : ∀ u ∈ rest, P u) :
    Yields P (choose condition onFalse onTrue rest) := by
  unfold choose
  split
  · rename_i b
    cases b with
    | true => simpa using ⟨hTrue, hRest⟩
    | false => simpa using ⟨hFalse, hRest⟩
  · exact yields_failing _ _

/-
  Every operator keeps the properties. One that finds too
  few values is deferred.
-/
theorem perform_yields
    (hInv : Invariant P T)
    (hStep : Keeps P T step)
    (op : Operator)
    {s : Stack}
    (hs : ∀ v ∈ s, P v) :
    Yields P (perform step op s) := by
  have hName : P (.deferred op.name) := by
    apply hInv.deferred (hInv.name op)
    simp [Operator.isName]
  unfold perform
  split
  case h_10 =>
    simpa using ⟨hName, hs⟩
  all_goals simp only [List.forall_mem_cons] at hs
  · exact hInv.unary_yields hStep _ hs.1 hs.2
  · exact hInv.binary_yields _ hs.2.1 hs.1 hs.2.2
  · simpa using hs.2
  · simpa using hs
  · simpa using ⟨hs.2.1, hs.1, hs.2.2⟩
  · simpa using ⟨hs.2.2.1, hs.1, hs.2.1, hs.2.2.2⟩
  · exact roll_yields _ _ _ (by simpa using hs.2)
  · exact roll_yields _ _ _ (by simpa using hs.2)
  · exact choose_yields _ hs.2.1 hs.2.2.1 hs.2.2.2

end Invariant

end Run

end StackCalc

------------------------------------------------------------
-- Tokens
------------------------------------------------------------

namespace StackCalc

namespace Run

variable
  {P : Value → Prop}
  {T : Text → Prop}
  {step : Text → Stack → Outcome}

/- Tokens with the property keep that of the values. -/
theorem Keeps.tokens_yields
    (hStep : Keeps P T step)
    {ts : List Text}
    {s : Stack}
    (hts : ∀ t ∈ ts, T t)
    (hs : ∀ v ∈ s, P v) :
    Yields P (tokens step ts s) := by
  induction ts generalizing s with
  | nil =>
      rw [tokens, yields_ok_iff]
      exact hs
  | cons t ts ih =>
      rw [List.forall_mem_cons] at hts
      rw [tokens]
      have hFirst := hStep hts.1 hs
      split
      · rename_i s' hOk
        exact ih hts.2 (hFirst s' hOk)
      · exact yields_error _

namespace Invariant

/-
  A block keeps the properties: its line has that of texts,
  and its stack is empty at first.
-/
theorem applyBlock_yields
    (hInv : Invariant P T)
    (hStep : Keeps P T step)
    {source : Text}
    {s : Stack}
    (hSource : T source)
    (hs : ∀ v ∈ s, P v) :
    Yields P (applyBlock step source s) := by
  unfold applyBlock
  split
  · exact yields_error _
  · rename_i b hParse
    split
    · exact yields_error _
    · rename_i args rest hArgs
      split
      · exact yields_error _
      · rename_i line hLine
        have hTokens :=
          hInv.line (.line hParse hArgs hLine) hSource hs
        have hScope :=
          hStep.tokens_yields hTokens (s := []) (by simp)
        split
        · exact yields_error _
        · rename_i scope hOk
          have hRest := Stack.suffix_of_popMany hArgs
          rw [yields_ok_iff]
          intro v hv
          rcases List.mem_append.1 hv with hInner | hOuter
          · exact hScope scope hOk v hInner
          · exact hs v (hRest.subset hOuter)

theorem literal_yields
    (hInv : Invariant P T)
    {t : Text}
    {s : Stack}
    (ht : T t)
    (hs : ∀ v ∈ s, P v) :
    Yields P (Run.literal t s) := by
  unfold Run.literal
  split
  · rename_i v hParse
    simpa using ⟨hInv.literal hParse ht, hs⟩
  · exact yields_error _

theorem quote_yields
    (hInv : Invariant P T)
    {t : Text}
    {s : Stack}
    (ht : T t)
    (hs : ∀ v ∈ s, P v) :
    Yields P (quote t s) := by
  unfold quote
  split
  · rename_i hDefer
    have hText :
        Operator.isName t = true ∨ t.head? = some '{' := by
      simpa using hDefer
    simpa using ⟨hInv.deferred ht hText, hs⟩
  · exact hInv.literal_yields ht hs

/-
  Carrying out a token keeps the properties. The depth
  carries the induction.
-/
theorem dispatch_keeps
    (hInv : Invariant P T)
    (depth : Nat) :
    Keeps P T (dispatch depth) := by
  induction depth with
  | zero =>
      intro t s ht hs
      exact yields_error _
  | succ depth ih =>
      intro t s ht hs
      unfold dispatch
      split
      · exact hInv.perform_yields ih _ hs
      · split
        · exact hInv.quote_yields (hInv.unquoted ht) hs
        · exact hInv.applyBlock_yields ih ht hs
        · exact hInv.literal_yields ht hs

end Invariant

end Run

end StackCalc

------------------------------------------------------------
-- Runs And Sessions
------------------------------------------------------------

namespace StackCalc

namespace Run

variable
  {P : Value → Prop}
  {T : Text → Prop}

/- Reporting a failure keeps the stack that it leaves. -/
theorem left_reported
    (r : Outcome) :
    Session.left (reported r) = Session.left r := by
  cases r with
  | ok s =>
      rfl
  | error f =>
      rcases reported_error f with ⟨cause, hReported⟩
      rw [hReported]
      rfl

/- The properties at a moment of a run. -/
structure Moment.Has
    (P : Value → Prop)
    (T : Text → Prop)
    (m : Moment) : Prop where
  texts : ∀ t ∈ m.tokens, T t
  values : ∀ v ∈ m.stack, P v

namespace Invariant

/- A moment passes the properties on to those that follow. -/
theorem of_follows
    (hInv : Invariant P T)
    {m m' : Moment}
    (hFollows : Follows m m')
    (h : m.Has P T) :
    m'.Has P T := by
  rcases h with ⟨hTexts, hValues⟩
  cases hFollows with
  | next hOk =>
      rw [List.forall_mem_cons] at hTexts
      exact ⟨hTexts.2,
        hInv.dispatch_keeps _ hTexts.1 hValues _ hOk⟩
  | @fail depth t ts s f hError =>
      have hPart := dispatch_onlyRemoves depth t s f hError
      exact ⟨by simp, fun v hv => hValues v (hPart.subset hv)⟩
  | evaluate hText =>
      rw [List.forall_mem_cons] at hValues
      exact ⟨by simpa using hInv.written hText hValues.1,
        hValues.2⟩
  | block hRuns =>
      rw [List.forall_mem_cons] at hTexts
      exact ⟨hInv.line hRuns hTexts.1 hValues, by simp⟩

/- They hold at every moment if they hold at first. -/
theorem of_reaches
    (hInv : Invariant P T)
    {m m' : Moment}
    (hReaches : Reaches m m')
    (h : m.Has P T) :
    m'.Has P T :=
  hReaches.induct hInv.of_follows h

/- What a program leaves has the property. -/
theorem of_program
    (hInv : Invariant P T)
    {lines : List Text}
    {s : Stack}
    (hTexts : ∀ t ∈ tokensOf lines, T t)
    (hs : ∀ v ∈ s, P v)
    (depth : Nat) :
    ∀ v ∈ Session.left (program lines s depth), P v := by
  have hEnd :=
    hInv.of_reaches
      (reaches_left depth (tokensOf lines) s) ⟨hTexts, hs⟩
  rw [program, left_reported]
  exact hEnd.values

/-
  If all texts have the property of texts, every session
  that starts with an empty stack keeps that of values.
-/
theorem of_session
    (hInv : Invariant P fun _ => True)
    (requests : List Request)
    {s : Stack}
    (hs : ∀ v ∈ s, P v)
    (depth : Nat) :
    ∀ v ∈ Session.after requests s depth, P v := by
  induction requests generalizing s with
  | nil =>
      exact hs
  | cons request requests ih =>
      apply ih
      cases request with
      | run lines =>
          exact hInv.of_program (fun _ _ => trivial) hs depth
      | reset =>
          simp [Session.answer, Session.left]

end Invariant

end Run

end StackCalc
