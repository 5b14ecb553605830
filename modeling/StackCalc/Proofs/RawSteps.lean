import StackCalc.Proofs.Dispatch
import StackCalc.Proofs.DoubleRange
import StackCalc.Proofs.LiteralGrammar
import StackCalc.Proofs.RawRun

/-
  What the machine does with values.

  On a pile of values its handlers do what the operators
  are meant to do, if the array unit can make, list and
  transpose arrays. Binary operators aside, which may be
  worked out by any such unit, and EVAL and blocks, which
  go on with other tokens, they leave the outcome that
  `Run` gives.

  Main declarations:
    * `Raw.pile`
    * `Raw.result`
    * `Raw.run_perform_cases`
    * `Raw.run_perform_binary`
    * `Raw.carryOut_eq_error`
    * `Literal.stored_of_readWhole`
    * `Raw.parse_eq`
    * `Raw.run_applyBlock_cases`
    * `Raw.run_dispatch_cases`
-/

------------------------------------------------------------
-- Piles Of Values
------------------------------------------------------------

namespace StackCalc

namespace Raw

variable {α β : Type}

/- The pile of the values of a stack. -/
def pile (s : Stack) : Pile :=
  s.map .value

/- What the machine leaves where an outcome comes up. -/
def result : Outcome → Except Break Unit × Pile
  | .ok s => (.ok (), pile s)
  | .error f => (.error (.ofStop f.cause), pile f.stack)

@[simp] theorem pile_nil :
    pile [] = [] :=
  rfl

@[simp] theorem pile_cons
    (v : Value)
    (s : Stack) :
    pile (v :: s) = .value v :: pile s :=
  rfl

@[simp] theorem pile_append
    (s s' : Stack) :
    pile (s ++ s') = pile s ++ pile s' :=
  List.map_append

@[simp] theorem length_pile
    (s : Stack) :
    (pile s).length = s.length :=
  List.length_map _

theorem run_bind_of_ok
    {x : Act α}
    {p q : Pile}
    {a : α}
    (h : x.run p = (.ok a, q))
    (f : α → Act β) :
    (x >>= f).run p = (f a).run q := by
  simp only [run_bind, h]

@[simp] theorem known_value_bind
    (v : Value)
    (f : Value → Act β) :
    known (.value v) >>= f = f v :=
  rfl

@[simp] theorem run_push_value
    (v : Value)
    (p : Pile) :
    (push (.value v)).run p = (.ok (), .value v :: p) :=
  rfl

theorem run_require_of_le
    {needed : Int}
    {p : Pile}
    (h : needed ≤ p.length)
    (token : Text) :
    (require needed token).run p = (.ok (), p) := by
  simp only [require, if_pos h]

@[simp] theorem run_pop_cons
    (token : Text)
    (x : Thing)
    (p : Pile) :
    (pop token).run (x :: p) = (.ok x, p) := by
  have hEnough : (1 : Int) ≤ (x :: p).length := by
    rw [List.length_cons]
    omega
  rw [pop, run_bind_of_ok (run_require_of_le hEnough token)]

@[simp] theorem run_peek_cons
    (token : Text)
    (x : Thing)
    (p : Pile) :
    (peek token).run (x :: p) = (.ok x, x :: p) := by
  have hEnough : (1 : Int) ≤ (x :: p).length := by
    rw [List.length_cons]
    omega
  rw [peek, run_bind_of_ok (run_require_of_le hEnough token)]

@[simp] theorem run_swapTop_cons
    (token : Text)
    (x y : Thing)
    (p : Pile) :
    (swapTop token).run (x :: y :: p) =
      (.ok (), y :: x :: p) := by
  have hEnough : (2 : Int) ≤ (x :: y :: p).length := by
    simp only [List.length_cons]
    omega
  rw [swapTop,
    run_bind_of_ok (run_require_of_le hEnough token)]

/- Values are put on top one by one. -/
theorem run_pushAll_pile
    (s s' : Stack) :
    (pushAll (pile s)).run (pile s') =
      (.ok (), pile (s.reverse ++ s')) := by
  induction s generalizing s' with
  | nil =>
      rfl
  | cons v s ih =>
      rw [pile_cons, pushAll,
        run_bind_of_ok (run_push_value v _), ← pile_cons, ih]
      simp

/- What a pile held is put back in the same order. -/
theorem run_pushAll_reverse
    (s s' : Stack) :
    (pushAll (pile s).reverse).run (pile s') =
      (.ok (), pile (s ++ s')) := by
  have hReverse : (pile s).reverse = pile s.reverse :=
    List.map_reverse.symm
  rw [hReverse, run_pushAll_pile, List.reverse_reverse]

theorem run_popMany_pile
    (count : Int)
    (token : Text)
    (s : Stack) :
    (popMany count token).run (pile s) =
      match Stack.popMany count token s with
      | .ok (args, rest) => (.ok (pile args), pile rest)
      | .error e => (.error (.ofStop e), pile s) := by
  unfold popMany Stack.popMany
  split
  · rfl
  · by_cases hEnough : count ≤ s.length
    · simp [run_bind, require, Stack.require, hEnough, pile,
        List.map_take, List.map_drop]
    · simp [run_bind, require, Stack.require, hEnough]

theorem rotateLeft_pile
    (s : Stack)
    (n : Nat) :
    (pile s).rotateLeft n = pile (s.rotateLeft n) := by
  simp only [List.rotateLeft, length_pile]
  split
  · rfl
  · simp [pile, List.map_take, List.map_drop]

theorem rotateRight_pile
    (s : Stack)
    (n : Nat) :
    (pile s).rotateRight n = pile (s.rotateRight n) := by
  simp only [List.rotateRight, length_pile]
  split
  · rfl
  · simp [pile, List.map_take, List.map_drop]

theorem rotateTop_pile
    (size : Nat)
    (towardTop : Bool)
    (s : Stack) :
    rotateTop size towardTop (pile s) =
      pile (Stack.rotateTop size towardTop s) := by
  have hTake : (pile s).take size = pile (s.take size) :=
    List.map_take.symm
  have hDrop : (pile s).drop size = pile (s.drop size) :=
    List.map_drop.symm
  cases towardTop with
  | false =>
      simp [rotateTop, Stack.rotateTop, hTake, hDrop,
        rotateLeft_pile]
  | true =>
      simp [rotateTop, Stack.rotateTop, hTake, hDrop,
        rotateRight_pile]

theorem run_rotateWindow_pile
    (size : Int)
    (towardTop : Bool)
    (token : Text)
    (s : Stack) :
    (rotateWindow size towardTop token).run (pile s) =
      match Stack.rotateWindow size towardTop token s with
      | .ok s' => (.ok (), pile s')
      | .error e => (.error (.ofStop e), pile s) := by
  unfold rotateWindow Stack.rotateWindow
  split
  · rfl
  · by_cases hEnough : size ≤ s.length
    · simp [run_bind, require, Stack.require, hEnough,
        rotateTop_pile]
    · simp [run_bind, require, Stack.require, hEnough]

end Raw

end StackCalc

------------------------------------------------------------
-- Operators
------------------------------------------------------------

namespace StackCalc

namespace UnaryOp

/- Unary operators are told apart by their names. -/
@[simp] theorem name_inj
    {op op' : UnaryOp} :
    op.name = op'.name ↔ op = op' := by
  cases op <;> cases op' <;> decide

end UnaryOp

namespace StackOp

/- Stack operators are told apart by their names. -/
@[simp] theorem name_inj
    {op op' : StackOp} :
    op.name = op'.name ↔ op = op' := by
  cases op <;> cases op' <;> decide

end StackOp

namespace BinaryOp

/- Every binary operator is found by its name. -/
@[simp] theorem ofName?_name
    (op : BinaryOp) :
    ofName? op.name = some op := by
  cases op <;> decide

end BinaryOp

namespace Run

/- With too few values an operator is pushed. -/
theorem perform_of_lt
    {op : Operator}
    {s : Stack}
    (h : s.length < op.arity)
    (step : Text → Stack → Outcome) :
    perform step op s = .ok (.deferred op.name :: s) := by
  unfold perform
  split
  case h_10 =>
    rfl
  all_goals
    simp only [Operator.arity, StackOp.arity,
      List.length_cons] at h
    omega

end Run

namespace Raw

variable {unit : ArrayUnit} {step : Text → Act Unit}
variable (runStep : Text → Stack → Outcome)

theorem run_perform_of_lt
    {op : Operator}
    {s : Stack}
    (h : s.length < op.arity) :
    (perform unit step op.family op.name).run (pile s) =
      result (Run.perform runStep op s) := by
  rw [Run.perform_of_lt h]
  simp [perform, Operator.arity?_family, run_bind, size, h,
    result]

theorem run_perform_of_le
    {op : Operator}
    {s : Stack}
    {handle : Text → Act Unit}
    (hHandle :
      (handlers unit step).lookup op.family = some handle)
    (h : op.arity ≤ s.length) :
    (perform unit step op.family op.name).run (pile s) =
      (handle op.name).run (pile s) := by
  simp [perform, Operator.arity?_family, run_bind, size,
    Nat.not_lt.2 h, hHandle]

theorem run_unary
    (hUnit : unit.Handles)
    {op : UnaryOp}
    (hOp : op ≠ .evaluate)
    (v : Value)
    (s : Stack) :
    (unary unit step op.name).run (pile (v :: s)) =
      result (Run.unary runStep op v s) := by
  rw [pile_cons, unary, run_bind_of_ok (run_pop_cons _ _ _)]
  cases op with
  | evaluate =>
      exact absurd rfl hOp
  | _ =>
      cases v with
      | _ =>
          simp [Run.unary, result, Run.failing, Break.ofStop,
            run_bind, hUnit.transpose]

theorem run_roll
    (op : StackOp)
    (towardTop : Bool)
    (n : Value)
    (s : Stack) :
    (roll towardTop op.name).run (pile (n :: s)) =
      result (Run.roll op towardTop n s) := by
  rw [pile_cons, roll, run_bind_of_ok (run_pop_cons _ _ _),
    known_value_bind]
  cases n with
  | integer z =>
      rw [run_rotateWindow_pile, Run.roll]
      cases Stack.rotateWindow z towardTop op.name s with
      | _ =>
          rfl
  | _ =>
      rfl

theorem rotateWindow_three
    (token : Text)
    (a b c : Value)
    (s : Stack) :
    Stack.rotateWindow 3 true token (a :: b :: c :: s) =
      .ok (c :: a :: b :: s) := by
  have hEnough :
      (3 : Int) ≤ (a :: b :: c :: s).length := by
    simp only [List.length_cons]
    omega
  simp only [Stack.rotateWindow, Stack.require,
    if_pos hEnough]
  rfl

theorem run_rearrange
    {op : StackOp}
    {s : Stack}
    (h : op.arity ≤ s.length) :
    (rearrange op.name).run (pile s) =
      result (Run.perform runStep (.stack op) s) := by
  cases op with
  | drop =>
      rcases s with - | ⟨v, s⟩
      · simp [StackOp.arity] at h
      · simp [rearrange, run_bind, Run.perform, result]
  | duplicate =>
      rcases s with - | ⟨v, s⟩
      · simp [StackOp.arity] at h
      · simp [rearrange, run_bind, Run.perform, result]
  | swap =>
      rcases s with - | ⟨a, - | ⟨b, s⟩⟩
      · simp [StackOp.arity] at h
      · simp [StackOp.arity] at h
      · simp [rearrange, Run.perform, result]
  | rotate =>
      rcases s with - | ⟨a, - | ⟨b, - | ⟨c, s⟩⟩⟩
      · simp [StackOp.arity] at h
      · simp [StackOp.arity] at h
      · simp [StackOp.arity] at h
      · simp only [rearrange, StackOp.name_inj, reduceCtorEq,
          if_false, if_true, run_rotateWindow_pile,
          rotateWindow_three, Run.perform, result]
  | roll =>
      rcases s with - | ⟨n, - | ⟨v, s⟩⟩
      · simp [StackOp.arity] at h
      · simp [StackOp.arity] at h
      · simp only [rearrange, StackOp.name_inj, reduceCtorEq,
          if_false, if_true, run_roll, Run.perform]
  | rollDown =>
      rcases s with - | ⟨n, - | ⟨v, s⟩⟩
      · simp [StackOp.arity] at h
      · simp [StackOp.arity] at h
      · simp only [rearrange, StackOp.name_inj, reduceCtorEq,
          if_false, if_true, run_roll, Run.perform]

theorem run_choose
    (c f t : Value)
    (s : Stack) :
    (choose Operator.conditional.name).run
        (pile (c :: f :: t :: s)) =
      result (Run.choose c f t s) := by
  simp only [pile_cons, choose]
  rw [run_bind_of_ok (run_pop_cons _ _ _),
    run_bind_of_ok (run_pop_cons _ _ _),
    run_bind_of_ok (run_pop_cons _ _ _), known_value_bind]
  cases c with
  | boolean b =>
      cases b with
      | _ =>
          rfl
  | _ =>
      rfl

/- What EVAL does on a pile of values. -/
theorem run_perform_evaluate
    (v : Value)
    (s : Stack) :
    (perform unit step (Operator.unary .evaluate).family
        (Operator.unary .evaluate).name).run
        (pile (v :: s)) =
      (evaluate unit step (.value v)).run (pile s) := by
  have hEnough :
      (Operator.unary .evaluate).arity ≤ (v :: s).length := by
    simp [Operator.arity]
  rw [run_perform_of_le rfl hEnough]
  show (unary unit step UnaryOp.evaluate.name).run _ = _
  rw [pile_cons, unary, run_bind_of_ok (run_pop_cons _ _ _),
    if_pos rfl]

theorem operation?_name
    (op : BinaryOp)
    (a b : Operand) :
    operation? unit op.name a b =
      (Binary.combine op a b).map (carryOut unit op a b) := by
  cases hGiven : Binary.combine op a b with
  | _ =>
      simp [operation?, hGiven]

/- What a binary operator does on a pile of values. -/
theorem run_perform_binary
    (op : BinaryOp)
    (l r : Value)
    (s : Stack) :
    (perform unit step (Operator.binary op).family
        (Operator.binary op).name).run
        (pile (r :: l :: s)) =
      match Binary.combine op l.operand r.operand with
      | none =>
          (.error (.fault (.typing
            (.undefined op.name l.kind r.kind))), pile s)
      | some given =>
          match sorting op.name
              (carryOut unit op l.operand r.operand given) with
          | .ok v => (.ok (), pile (v :: s))
          | .error b => (.error b, pile s) := by
  have hEnough :
      (Operator.binary op).arity ≤ (r :: l :: s).length := by
    simp [Operator.arity]
  rw [run_perform_of_le rfl hEnough]
  show (binary unit op.name).run (pile (r :: l :: s)) = _
  simp only [pile_cons, binary]
  rw [run_bind_of_ok (run_pop_cons _ _ _),
    run_bind_of_ok (run_pop_cons _ _ _)]
  simp only [apply, known_value_bind, operation?_name]
  cases Binary.combine op l.operand r.operand with
  | none =>
      rfl
  | some given =>
      simp only [Option.map_some, run_bind, run_give]
      cases sorting op.name
          (carryOut unit op l.operand r.operand given) with
      | _ =>
          rfl

theorem worked_eq_error
    {op : BinaryOp}
    {w : Except Incident (Option Value)}
    {c : Break}
    (h : worked op w = .error c) :
    (∃ i, w = .error i ∧ c = .incident i) ∨
      c = .fault (arithmeticFault op .singular) := by
  unfold worked at h
  split at h
  case h_1 i =>
    exact .inl ⟨i, rfl, (Except.error.inj h).symm⟩
  case h_2 =>
    exact .inr (Except.error.inj h).symm
  case h_3 =>
    simp at h

/-
  An operator on operands breaks off because the array unit
  refuses, finds a matrix to be singular, or because of a
  fault by the rules.
-/
theorem carryOut_eq_error
    {op : BinaryOp}
    {a b : Operand}
    {r : Except Fault Value}
    {c : Break}
    (h : carryOut unit op a b r = .error c) :
    (∃ i, unit.work op a b = .error i ∧ c = .incident i) ∨
      c = .fault (arithmeticFault op .singular) ∨
      ∃ f, r = .error f ∧ c = .ofFault f := by
  have hWorked
      (h : worked op (unit.work op a b) = .error c) :
      (∃ i, unit.work op a b = .error i ∧ c = .incident i) ∨
        c = .fault (arithmeticFault op .singular) ∨
        ∃ f, r = .error f ∧ c = .ofFault f :=
    (worked_eq_error h).imp_right .inl
  unfold carryOut at h
  split at h
  case isTrue =>
    split at h
    case h_1 f =>
      split at h
      case isTrue =>
        exact hWorked h
      case isFalse =>
        exact .inr (.inr ⟨f, rfl, (Except.error.inj h).symm⟩)
    case h_2 =>
      exact hWorked h
  case isFalse =>
    cases r with
    | ok v =>
        simp at h
    | error f =>
        exact .inr (.inr ⟨f, rfl, (Except.error.inj h).symm⟩)

/-
  On a pile of values an operator leaves what it should, if
  it does not go on with a text or work out a result.
-/
theorem run_perform_cases
    {unit : ArrayUnit}
    (hUnit : unit.Handles)
    (step : Text → Act Unit)
    (runStep : Text → Stack → Outcome)
    (op : Operator)
    (s : Stack) :
    (perform unit step op.family op.name).run (pile s) =
        result (Run.perform runStep op s) ∨
      (∃ v rest, op = .unary .evaluate ∧ s = v :: rest) ∨
      (∃ op' r l rest,
        op = .binary op' ∧ s = r :: l :: rest) := by
  rcases Nat.lt_or_ge s.length op.arity with hShort | hEnough
  · exact .inl (run_perform_of_lt runStep hShort)
  · cases op with
    | unary op =>
        rcases s with - | ⟨v, s⟩
        · simp [Operator.arity] at hEnough
        · by_cases hOp : op = .evaluate
          · exact .inr (.inl ⟨v, s, by rw [hOp], rfl⟩)
          · left
            rw [run_perform_of_le rfl hEnough]
            exact run_unary runStep hUnit hOp v s
    | binary op =>
        rcases s with - | ⟨r, - | ⟨l, s⟩⟩
        · simp [Operator.arity] at hEnough
        · simp [Operator.arity] at hEnough
        · exact .inr (.inr ⟨op, r, l, s, rfl, rfl⟩)
    | stack op =>
        left
        rw [run_perform_of_le rfl hEnough]
        exact run_rearrange runStep hEnough
    | conditional =>
        left
        rcases s with - | ⟨c, - | ⟨f, - | ⟨t, s⟩⟩⟩
        · simp [Operator.arity] at hEnough
        · simp [Operator.arity] at hEnough
        · simp [Operator.arity] at hEnough
        · rw [run_perform_of_le rfl hEnough]
          exact run_choose c f t s

end Raw

end StackCalc

------------------------------------------------------------
-- Literals
------------------------------------------------------------

namespace StackCalc

namespace Grammar

variable {α : Type}

theorem Listed.exists_of_mem
    {P : Text → α → Prop}
    {t : Text}
    {as : List α}
    (h : Listed P t as) :
    ∀ a ∈ as, ∃ l, P l a := by
  induction h with
  | last hFront hItem hBack =>
      rintro a hMem
      rw [List.mem_singleton.1 hMem]
      exact ⟨_, hItem⟩
  | more hFront hItem hBack hMore ih =>
      exact List.forall_mem_cons.2 ⟨⟨_, hItem⟩, ih⟩

theorem Bracketed.exists_of_mem
    {P : Text → α → Prop}
    {t : Text}
    {as : List α}
    (h : Bracketed P t as) :
    ∀ a ∈ as, ∃ l, P l a := by
  cases h with
  | empty hBlanks =>
      simp
  | items hItems =>
      exact hItems.exists_of_mem

/- The integers of a row that is spelled can be stored. -/
theorem SpellsRow.stored
    {t : Text}
    {v : NumVector}
    (h : SpellsRow t v) :
    v.Stored := by
  rcases h with ⟨-, hGathers⟩
  cases hGathers with
  | ints hFits =>
      exact hFits
  | floats hFloat hRange =>
      trivial

end Grammar

namespace Literal

open Grammar

/- The integers of rows that are read can be stored. -/
theorem stored_of_readWhole
    {t : Text}
    {vs : List NumVector}
    (h : readWhole t = .ok (.rows vs)) :
    ∀ v ∈ vs, v.Stored := by
  unfold readWhole at h
  split at h
  case h_1 =>
    simp at h
  case h_2 node r hRead =>
    split at h
    case h_1 =>
      rw [Except.ok.inj h] at hRead
      unfold readNode at hRead
      split at hRead
      case h_1 rest =>
        split at hRead
        case h_1 =>
          simp at hRead
        case h_2 is r' hArray =>
          rcases reads_item.bracketed_of_array hArray with
            ⟨l, -, hItems⟩
          split at hRead
          case h_1 node' hPack =>
            simp only [Except.ok.injEq, Prod.mk.injEq]
              at hRead
            rw [hRead.1] at hPack
            rcases packItems_eq_ok_iff.1 hPack with
              ⟨ns, w, -, -, hNode⟩ | ⟨ws, -, rfl, hNode⟩
            · simp at hNode
            · rw [Node.rows.inj hNode]
              intro v hv
              rcases hItems.exists_of_mem _
                  (List.mem_map_of_mem hv) with ⟨l', hItem⟩
              exact ((spellsItem_row_iff l' v).1 hItem).stored
          case h_2 =>
            simp at hRead
      case h_2 =>
        split at hRead
        case h_1 =>
          simp at hRead
        case h_2 =>
          simp at hRead
    case h_2 =>
      simp at h

end Literal

namespace NumMatrix

/- The length stays when integers become doubles. -/
theorem length_toFloats
    (v : NumVector) :
    NumVector.length (.floats v.toFloats) = v.length := by
  cases v with
  | ints zs =>
      exact List.length_map _
  | floats xs =>
      rfl

/- Rows with a double among them may all be doubles. -/
theorem ofRows_toFloats
    {vs : List NumVector}
    (h : vs.any NumVector.isFloats = true) :
    ofRows (vs.map fun v => .floats v.toFloats) =
      ofRows vs := by
  have hLengths :
      (vs.map fun v => Entries.floats v.toFloats).map
          NumVector.length =
        vs.map NumVector.length := by
    rw [List.map_map]
    exact List.map_congr_left fun v _ => length_toFloats v
  have hFloats :
      (vs.map fun v => Entries.floats v.toFloats).any
          NumVector.isFloats = true := by
    rw [List.any_map, List.any_eq_true]
    rcases List.any_eq_true.1 h with ⟨v, hv, -⟩
    exact ⟨v, hv, rfl⟩
  have hRows :
      (vs.map fun v => Entries.floats v.toFloats).map
          Entries.toFloats =
        vs.map Entries.toFloats := by
    rw [List.map_map]
    rfl
  simp only [ofRows, hLengths, hFloats, hRows, h, if_true]

end NumMatrix

namespace Raw

theorem mapM_toDouble
    {zs : List Int}
    (h : ∀ z ∈ zs, Storage.fits z = true) :
    zs.mapM toDouble = .ok (zs.map Float.ofInt) := by
  induction zs with
  | nil =>
      rfl
  | cons z zs ih =>
      rw [List.forall_mem_cons] at h
      have hFirst : toDouble z = .ok (Float.ofInt z) := by
        rw [toDouble, floatOfInt?_of_fits h.1]
      rw [List.mapM_cons, hFirst, ih h.2]
      rfl

theorem toDoubles_of_stored
    {v : NumVector}
    (h : v.Stored) :
    toDoubles v = .ok (.floats v.toFloats) := by
  cases v with
  | ints zs =>
      have hDoubles :
          zs.mapM toDouble = .ok (zs.map Float.ofInt) :=
        mapM_toDouble h
      rw [toDoubles, hDoubles]
      rfl
  | floats xs =>
      rfl

theorem mapM_toDoubles
    {vs : List NumVector}
    (h : ∀ v ∈ vs, v.Stored) :
    vs.mapM toDoubles =
      .ok (vs.map fun v => .floats v.toFloats) := by
  induction vs with
  | nil =>
      rfl
  | cons v vs ih =>
      rw [List.forall_mem_cons] at h
      rw [List.mapM_cons, toDoubles_of_stored h.1, ih h.2]
      rfl

/- Rows of stored integers are put together. -/
theorem materialize_rows
    {unit : ArrayUnit}
    (hUnit : unit.Handles)
    {vs : List NumVector}
    (h : ∀ v ∈ vs, v.Stored) :
    materialize unit (.rows vs) =
      (Literal.Node.rows vs).toValue.mapError .fault := by
  have hConvert :
      ∃ rows, convert vs = .ok rows ∧
        NumMatrix.ofRows rows = NumMatrix.ofRows vs := by
    unfold convert
    split
    case isTrue hFloats =>
      exact ⟨_, mapM_toDoubles h,
        NumMatrix.ofRows_toFloats hFloats⟩
    case isFalse =>
      exact ⟨vs, rfl, rfl⟩
  rcases hConvert with ⟨rows, hRows, hSame⟩
  simp only [materialize, hRows, hSame, hUnit.make,
    Literal.Node.toValue]
  cases NumMatrix.ofRows vs with
  | _ =>
      rfl

/- Literals are read without incident. -/
theorem parse_eq
    {unit : ArrayUnit}
    (hUnit : unit.Handles)
    (t : Text) :
    parse unit t = (Literal.parse t).mapError .ofStop := by
  unfold parse Literal.parse
  split
  · rfl
  · split
    · rfl
    · cases hRead : Literal.readWhole t with
      | error e =>
          rfl
      | ok node =>
          have hNode :
              materialize unit node =
                node.toValue.mapError .fault := by
            cases node with
            | scalar s =>
                rfl
            | vector v =>
                simp [materialize, hUnit.make,
                  Literal.Node.toValue]
            | rows vs =>
                exact materialize_rows hUnit
                  (Literal.stored_of_readWhole hRead)
          simp only [hNode]
          cases node.toValue with
          | _ =>
              rfl

/- A literal is pushed. -/
theorem run_literal
    {unit : ArrayUnit}
    (hUnit : unit.Handles)
    (t : Text)
    (s : Stack) :
    (literal unit t).run (pile s) =
      result (Run.literal t s) := by
  rw [literal, run_bind, run_give, parse_eq hUnit, Run.literal]
  cases Literal.parse t with
  | _ =>
      rfl

/- What stands after an apostrophe is pushed. -/
theorem run_quote
    {unit : ArrayUnit}
    (hUnit : unit.Handles)
    (t : Text)
    (s : Stack) :
    (quote unit t).run (pile s) =
      result (Run.quote t s) := by
  unfold quote Run.quote
  split
  · rfl
  · exact run_literal hUnit t s

end Raw

end StackCalc

------------------------------------------------------------
-- Blocks
------------------------------------------------------------

namespace StackCalc

namespace Raw

/- A value is written as it is. -/
theorem listed_value
    {unit : ArrayUnit}
    (hUnit : unit.Handles)
    (v : Value) :
    listed unit (.value v) = .ok v := by
  cases v with
  | _ =>
      simp [listed, Thing.shown, hUnit.list]

theorem mapM_listed_pile
    {unit : ArrayUnit}
    (hUnit : unit.Handles)
    (s : Stack) :
    (pile s).mapM (listed unit) = .ok s := by
  induction s with
  | nil =>
      rfl
  | cons v s ih =>
      rw [pile_cons, List.mapM_cons, listed_value hUnit, ih]
      rfl

/- A value is evaluated as its text. -/
theorem run_evaluate
    {unit : ArrayUnit}
    (hUnit : unit.Handles)
    (step : Text → Act Unit)
    (v : Value)
    (s : Stack) :
    (evaluate unit step (.value v)).run (pile s) =
      match v.render with
      | some t => (step t).run (pile s)
      | none =>
          (.error (.incident .tooManyDigits), pile s) := by
  simp only [evaluate, run_bind, run_give, listed_value hUnit]
  cases v.render with
  | _ =>
      rfl

/-
  On a pile of values a block leaves what it should, or
  goes on with the tokens of a line.
-/
theorem run_applyBlock_cases
    {unit : ArrayUnit}
    (hUnit : unit.Handles)
    (step : Text → Act Unit)
    (runStep : Text → Stack → Outcome)
    (source : Text)
    (s : Stack) :
    (applyBlock unit step source).run (pile s) =
        result (Run.applyBlock runStep source s) ∨
      ∃ line rest,
        (applyBlock unit step source).run (pile s) =
          (match
              (tokens step (Token.split line)).run [] with
            | (.error b, _) => (.error b, pile rest)
            | (.ok _, scope) =>
                (pushAll scope.reverse).run (pile rest)) ∧
        Run.applyBlock runStep source s =
          match Run.tokens runStep (Token.split line) [] with
          | .error f => .error ⟨f.cause, rest⟩
          | .ok scope => .ok (scope ++ rest) := by
  simp only [applyBlock, Run.applyBlock, run_bind, run_give]
  cases Block.parse source with
  | error e =>
      exact .inl rfl
  | ok b =>
      simp only [mapError_ok, run_popMany_pile]
      cases Stack.popMany b.arity source s with
      | error e =>
          exact .inl rfl
      | ok taken =>
          simp only [mapM_listed_pile hUnit]
          cases b.substitute taken.1 with
          | error e =>
              exact .inl rfl
          | ok line =>
              refine .inr ⟨line, taken.2, ?_, rfl⟩
              simp only [mapError_ok, onNewPile]
              rcases (tokens step (Token.split line)).run []
                with ⟨_ | _, scope⟩
              · rfl
              · rfl

theorem dispatch_literal
    {t : Text}
    (hNone : Operator.ofName? t = none)
    (hQuote : t.head? ≠ some '\'')
    (hBrace : t.head? ≠ some '{')
    (unit : ArrayUnit)
    (depth : Nat) :
    dispatch unit (depth + 1) t = literal unit t := by
  simp only [dispatch, hNone]
  split
  · exact absurd rfl hQuote
  · exact absurd rfl hBrace
  · rfl

/-
  On a pile of values a token is an operator, or a block,
  or it leaves what it should.
-/
theorem run_dispatch_cases
    {unit : ArrayUnit}
    (hUnit : unit.Handles)
    (depth : Nat)
    (t : Text)
    (s : Stack) :
    (∃ op : Operator,
        dispatch unit (depth + 1) t =
          perform unit (dispatch unit depth) op.family
            op.name ∧
        Run.dispatch (depth + 1) t s =
          Run.perform (Run.dispatch depth) op s) ∨
      (dispatch unit (depth + 1) t =
          applyBlock unit (dispatch unit depth) t ∧
        Run.dispatch (depth + 1) t s =
          Run.applyBlock (Run.dispatch depth) t s) ∨
      (dispatch unit (depth + 1) t).run (pile s) =
        result (Run.dispatch (depth + 1) t s) := by
  cases hName : Operator.ofName? t with
  | some op =>
      refine .inl ⟨op, ?_, Run.dispatch_operator hName depth s⟩
      rw [Operator.name_of_ofName? hName]
      simp only [dispatch, hName]
  | none =>
      by_cases hQuote : t.head? = some '\''
      · rcases List.head?_eq_some_iff.1 hQuote with ⟨rest, rfl⟩
        refine .inr (.inr ?_)
        rw [Run.dispatch_quote]
        simp only [dispatch, hName]
        exact run_quote hUnit rest s
      · by_cases hBrace : t.head? = some '{'
        · rcases List.head?_eq_some_iff.1 hBrace with
            ⟨rest, rfl⟩
          refine .inr (.inl ⟨?_, Run.dispatch_block rest depth s⟩)
          simp only [dispatch, hName]
        · refine .inr (.inr ?_)
          rw [Run.dispatch_literal hName hQuote hBrace,
            dispatch_literal hName hQuote hBrace]
          exact run_literal hUnit t s

end Raw

end StackCalc
