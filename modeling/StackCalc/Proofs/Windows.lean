import Mathlib.Data.List.Rotate
import StackCalc.Proofs.Dispatch
import StackCalc.Proofs.WrittenInteger

/-
  Windows at the top of the stack.

  ROLL and ROLLD move the values of a window round by one,
  in opposite directions. From the bottom to the top the
  window is rotated to the left by ROLL, so that moves add
  up, and as many moves as there are values in the window
  undo each other. A window that the stack does not hold
  stays where it is.

  Main declarations:
    * `Stack.turned`
    * `Stack.rotateTop_roll`
    * `Stack.rotateTop_rollDown`
    * `Stack.rotateWindow_of_outside`
    * `Run.rollTimes_eq_turned`
    * `Run.roll_turns_window`
-/

------------------------------------------------------------
-- Rotated Windows
------------------------------------------------------------

namespace StackCalc

namespace Stack

/-
  The stack whose top `n` values, as they stand from the
  bottom to the top, are rotated to the left `k` times.
-/
def turned
    (n k : Nat)
    (s : Stack) : Stack :=
  ((s.take n).reverse.rotate k).reverse ++ s.drop n

@[simp] theorem turned_zero
    (n : Nat)
    (s : Stack) :
    turned n 0 s = s := by
  simp [turned]

/- The window holds the rotated values and no others. -/
theorem take_turned
    {n : Nat}
    {s : Stack}
    (h : n ≤ s.length)
    (k : Nat) :
    (turned n k s).take n =
      ((s.take n).reverse.rotate k).reverse := by
  have hLength :
      (((s.take n).reverse.rotate k).reverse).length = n := by
    simp [h]
  rw [turned, List.take_append_of_le_length hLength.ge,
    List.take_of_length_le hLength.le]

/- The values below the window stay in place. -/
theorem drop_turned
    {n : Nat}
    {s : Stack}
    (h : n ≤ s.length)
    (k : Nat) :
    (turned n k s).drop n = s.drop n := by
  have hLength :
      (((s.take n).reverse.rotate k).reverse).length = n := by
    simp [h]
  rw [turned, List.drop_append_of_le_length hLength.ge,
    List.drop_of_length_le hLength.le, List.nil_append]

@[simp] theorem length_turned
    (n k : Nat)
    (s : Stack) :
    (turned n k s).length = s.length := by
  simp [turned]
  omega

/- Rotations of one window add up. -/
theorem turned_turned
    {n : Nat}
    {s : Stack}
    (h : n ≤ s.length)
    (j k : Nat) :
    turned n k (turned n j s) = turned n (j + k) s := by
  rw [turned, take_turned h, drop_turned h,
    List.reverse_reverse, List.rotate_rotate, turned]

/- Whole rounds do not count. -/
theorem turned_mod
    {n : Nat}
    {s : Stack}
    (h : n ≤ s.length)
    (k : Nat) :
    turned n (k % n) s = turned n k s := by
  have hLength : (s.take n).reverse.length = n := by
    simp [h]
  have hRotate :=
    List.rotate_mod (s.take n).reverse k
  rw [hLength] at hRotate
  rw [turned, hRotate, turned]

theorem turned_self
    {n : Nat}
    {s : Stack}
    (h : n ≤ s.length) :
    turned n n s = s := by
  rw [← turned_mod h, Nat.mod_self, turned_zero]

/- No value gets lost, and none is added. -/
theorem turned_perm
    (n k : Nat)
    (s : Stack) :
    (turned n k s).Perm s := by
  have hWindow :
      ((s.take n).reverse.rotate k).reverse.Perm
        (s.take n) :=
    (List.reverse_perm _).trans
      ((List.rotate_perm _ k).trans (List.reverse_perm _))
  have hWhole := hWindow.append_right (s.drop n)
  rwa [List.take_append_drop] at hWhole

end Stack

end StackCalc

------------------------------------------------------------
-- Moving A Window
------------------------------------------------------------

namespace StackCalc

namespace Stack

/- The first value goes last. -/
theorem rotateLeft_one_eq
    (s : Stack) :
    s.rotateLeft 1 = s.rotate 1 := by
  unfold List.rotateLeft
  rcases s with _ | ⟨v, _ | ⟨w, rest⟩⟩
  · rfl
  · simp
  · simp

/- The last value goes first. -/
theorem rotateRight_one_eq
    (s : Stack) :
    s.rotateRight 1 = (s.reverse.rotate 1).reverse := by
  rcases List.eq_nil_or_concat s with rfl | ⟨rest, v, rfl⟩
  · rfl
  · unfold List.rotateRight
    rcases rest with _ | ⟨w, rest⟩
    · simp
    · simp [Nat.mod_eq_of_lt]

/- From the bottom to the top ROLL rotates to the left. -/
theorem rotateTop_roll
    (n : Nat)
    (s : Stack) :
    rotateTop n true s = turned n 1 s := by
  simp only [rotateTop, if_true, turned, rotateRight_one_eq]

/- ROLLD does so all times but one. -/
theorem rotateTop_rollDown
    {n : Nat}
    {s : Stack}
    (hPos : 1 ≤ n)
    (h : n ≤ s.length) :
    rotateTop n false s = turned n (n - 1) s := by
  have hLength : (s.take n).length = n := by
    simp [h]
  have hShift : n - (n - 1) % n = 1 := by
    rw [Nat.mod_eq_of_lt (by omega)]
    omega
  simp only [rotateTop, Bool.false_eq_true, if_false, turned,
    rotateLeft_one_eq, List.rotate_reverse,
    List.reverse_reverse, hLength, hShift]

/- A window that the stack holds is moved. -/
theorem rotateWindow_of_le
    {n : Nat}
    {s : Stack}
    (hPos : 1 ≤ n)
    (h : n ≤ s.length)
    (towardTop : Bool)
    (token : Text) :
    rotateWindow n towardTop token s =
      .ok (rotateTop n towardTop s) := by
  have hSmall : ¬ (n : Int) < 1 := by
    omega
  have hEnough : (n : Int) ≤ s.length := by
    omega
  simp only [rotateWindow, require, if_neg hSmall,
    if_pos hEnough, Int.toNat_natCast]

/- The stack complains of any other window. -/
theorem rotateWindow_of_outside
    {n : Int}
    {s : Stack}
    (h : n < 1 ∨ s.length < n) :
    ∃ cause, ∀ towardTop token,
      rotateWindow n towardTop token s =
        .error (complaint token cause n) := by
  by_cases hSmall : n < 1
  · refine ⟨.emptyWindow n, ?_⟩
    intro towardTop token
    simp only [rotateWindow, if_pos hSmall]
  · have hShort : ¬ n ≤ s.length := by
      omega
    refine ⟨.tooShort n s.length, ?_⟩
    intro towardTop token
    simp only [rotateWindow, require, if_neg hSmall,
      if_neg hShort]

/- A short number can be told in a complaint. -/
theorem complaint_of_isShort
    {n : Int}
    (h : Decimal.isShort n = true)
    (token : Text)
    (cause : StackFault) :
    complaint token cause n =
      .fault (.corruption cause token) := by
  rw [complaint, if_pos h]

end Stack

end StackCalc

------------------------------------------------------------
-- ROLL And ROLLD
------------------------------------------------------------

namespace StackCalc

namespace Run

/-
  The operators that move windows, with the direction in
  which each moves them.
-/
inductive Rolls : StackOp → Bool → Prop
  | roll : Rolls .roll true
  | rollDown : Rolls .rollDown false

/- Above any value the size of a window is popped. -/
theorem dispatch_rolls
    {op : StackOp}
    {towardTop : Bool}
    (hOp : Rolls op towardTop)
    {s : Stack}
    (hs : s ≠ [])
    (depth : Nat)
    (v : Value) :
    dispatch (depth + 1) op.name (v :: s) =
      roll op towardTop v s := by
  rcases List.exists_cons_of_ne_nil hs with ⟨w, rest, rfl⟩
  cases hOp with
  | roll =>
      exact dispatch_name (.stack .roll) depth _
  | rollDown =>
      exact dispatch_name (.stack .rollDown) depth _

/- A window that the stack holds is moved. -/
theorem dispatch_rolls_of_le
    {op : StackOp}
    {towardTop : Bool}
    (hOp : Rolls op towardTop)
    {n : Nat}
    {s : Stack}
    (hPos : 1 ≤ n)
    (h : n ≤ s.length)
    (depth : Nat) :
    dispatch (depth + 1) op.name (.integer n :: s) =
      .ok (Stack.rotateTop n towardTop s) := by
  have hs : s ≠ [] := by
    rintro rfl
    simp only [List.length_nil] at h
    omega
  rw [dispatch_rolls hOp hs]
  simp only [roll, Stack.rotateWindow_of_le hPos h]

/- Any other window leaves the stack as it is. -/
theorem dispatch_rolls_of_outside
    {op : StackOp}
    {towardTop : Bool}
    (hOp : Rolls op towardTop)
    {n : Int}
    {s : Stack}
    (hs : s ≠ [])
    (hShort : Decimal.isShort n = true)
    (h : n < 1 ∨ s.length < n)
    (depth : Nat) :
    ∃ cause,
      dispatch (depth + 1) op.name (.integer n :: s) =
        .error ⟨.fault (.corruption cause op.name), s⟩ := by
  rcases Stack.rotateWindow_of_outside h with ⟨cause, hWindow⟩
  refine ⟨cause, ?_⟩
  rw [dispatch_rolls hOp hs]
  simp only [roll, hWindow,
    Stack.complaint_of_isShort hShort]

theorem dispatch_roll
    {n : Nat}
    {s : Stack}
    (hPos : 1 ≤ n)
    (h : n ≤ s.length)
    (depth : Nat) :
    dispatch (depth + 1) StackOp.roll.name (.integer n :: s) =
      .ok (Stack.turned n 1 s) := by
  rw [dispatch_rolls_of_le .roll hPos h, Stack.rotateTop_roll]

theorem dispatch_rollDown
    {n : Nat}
    {s : Stack}
    (hPos : 1 ≤ n)
    (h : n ≤ s.length)
    (depth : Nat) :
    dispatch (depth + 1) StackOp.rollDown.name
        (.integer n :: s) =
      .ok (Stack.turned n (n - 1) s) := by
  rw [dispatch_rolls_of_le .rollDown hPos h,
    Stack.rotateTop_rollDown hPos h]

/- Push the size of a window and ROLL it, `k` times. -/
def rollTimes
    (depth : Nat)
    (n : Int) : Nat → Stack → Outcome
  | 0, s => .ok s
  | k + 1, s =>
      match dispatch depth StackOp.roll.name
          (.integer n :: s) with
      | .ok s' => rollTimes depth n k s'
      | .error f => .error f

/-
  Each ROLL adds one rotation. The stack is generalised:
  the window of the next ROLL has been rotated already.
-/
theorem rollTimes_eq_turned
    {n : Nat}
    {s : Stack}
    (hPos : 1 ≤ n)
    (h : n ≤ s.length)
    (depth k : Nat) :
    rollTimes (depth + 1) n k s =
      .ok (Stack.turned n k s) := by
  induction k generalizing s with
  | zero =>
      rw [rollTimes, Stack.turned_zero]
  | succ k ih =>
      have hMore : n ≤ (Stack.turned n 1 s).length := by
        rw [Stack.length_turned]
        exact h
      rw [rollTimes, dispatch_roll hPos h]
      refine (ih hMore).trans ?_
      rw [Stack.turned_turned h, Nat.add_comm]

/- ROLLD moves a window back that ROLL has moved. -/
theorem rollDown_after_roll
    {n : Nat}
    {s : Stack}
    (hPos : 1 ≤ n)
    (h : n ≤ s.length)
    (depth : Nat) :
    (do
      let s' ← dispatch (depth + 1) StackOp.roll.name
        (.integer n :: s)
      dispatch (depth + 1) StackOp.rollDown.name
        (.integer n :: s')) = .ok s := by
  have hMore : n ≤ (Stack.turned n 1 s).length := by
    rw [Stack.length_turned]
    exact h
  have hRound : 1 + (n - 1) = n := by
    omega
  rw [dispatch_roll hPos h]
  refine (dispatch_rollDown hPos hMore depth).trans ?_
  rw [Stack.turned_turned h, hRound, Stack.turned_self h]

/- ROLL moves a window back that ROLLD has moved. -/
theorem roll_after_rollDown
    {n : Nat}
    {s : Stack}
    (hPos : 1 ≤ n)
    (h : n ≤ s.length)
    (depth : Nat) :
    (do
      let s' ← dispatch (depth + 1) StackOp.rollDown.name
        (.integer n :: s)
      dispatch (depth + 1) StackOp.roll.name
        (.integer n :: s')) = .ok s := by
  have hMore : n ≤ (Stack.turned n (n - 1) s).length := by
    rw [Stack.length_turned]
    exact h
  have hRound : n - 1 + 1 = n := by
    omega
  rw [dispatch_rollDown hPos h]
  refine (dispatch_roll hPos hMore depth).trans ?_
  rw [Stack.turned_turned h, hRound, Stack.turned_self h]

/- A window of three is moved as by ROT. -/
theorem dispatch_roll_three
    (depth : Nat)
    (a b c : Value)
    (rest : Stack) :
    dispatch (depth + 1) StackOp.roll.name
        (.integer 3 :: a :: b :: c :: rest) =
      dispatch (depth + 1) StackOp.rotate.name
        (a :: b :: c :: rest) := by
  have hRoll :=
    dispatch_rolls_of_le .roll (n := 3)
      (s := a :: b :: c :: rest) (by decide)
      (by simp only [List.length_cons]; omega) depth
  exact hRoll.trans (dispatch_name (.stack .rotate) depth
    (a :: b :: c :: rest)).symm

/- A window of two is moved as by SWAP. -/
theorem dispatch_roll_two
    (depth : Nat)
    (a b : Value)
    (rest : Stack) :
    dispatch (depth + 1) StackOp.roll.name
        (.integer 2 :: a :: b :: rest) =
      dispatch (depth + 1) StackOp.swap.name
        (a :: b :: rest) := by
  have hRoll :=
    dispatch_rolls_of_le .roll (n := 2)
      (s := a :: b :: rest) (by decide)
      (by simp only [List.length_cons]; omega) depth
  exact hRoll.trans (dispatch_name (.stack .swap) depth
    (a :: b :: rest)).symm

/-
  ROLL and ROLLD are inverse rotations of a window that the
  stack holds. After `k` times ROLL the window, from the
  bottom to the top, is rotated to the left by `k` modulo
  its size, and the values below it are where they were. A
  window of three is moved as by ROT, and one of two as by
  SWAP. Any other window is refused.
-/
theorem roll_turns_window
    (depth : Nat)
    (s : Stack) :
    (∀ n : Nat, 1 ≤ n → n ≤ s.length →
      (do
        let s' ← dispatch (depth + 1) StackOp.roll.name
          (.integer n :: s)
        dispatch (depth + 1) StackOp.rollDown.name
          (.integer n :: s')) = .ok s ∧
      (do
        let s' ← dispatch (depth + 1) StackOp.rollDown.name
          (.integer n :: s)
        dispatch (depth + 1) StackOp.roll.name
          (.integer n :: s')) = .ok s ∧
      (∀ k, ∃ window,
        rollTimes (depth + 1) n k s =
            .ok (window ++ s.drop n) ∧
          window.reverse =
            (s.take n).reverse.rotate (k % n) ∧
          (window ++ s.drop n).Perm s) ∧
      rollTimes (depth + 1) n n s = .ok s ∧
      (n = 3 →
        dispatch (depth + 1) StackOp.roll.name
            (.integer n :: s) =
          dispatch (depth + 1) StackOp.rotate.name s) ∧
      (n = 2 →
        dispatch (depth + 1) StackOp.roll.name
            (.integer n :: s) =
          dispatch (depth + 1) StackOp.swap.name s)) ∧
    ∀ z : Int, s ≠ [] → z < 1 ∨ s.length < z →
      Decimal.isShort z = true →
      ∀ op, op = .roll ∨ op = .rollDown →
        ∃ cause,
          dispatch (depth + 1) (StackOp.name op)
              (.integer z :: s) =
            .error
              ⟨.fault (.corruption cause op.name), s⟩ := by
  refine ⟨?_, ?_⟩
  · intro n hPos h
    refine ⟨rollDown_after_roll hPos h depth,
      roll_after_rollDown hPos h depth, ?_, ?_, ?_, ?_⟩
    · intro k
      refine ⟨((s.take n).reverse.rotate (k % n)).reverse,
        ?_, List.reverse_reverse _,
        Stack.turned_perm n (k % n) s⟩
      rw [rollTimes_eq_turned hPos h, ← Stack.turned_mod h,
        Stack.turned]
    · rw [rollTimes_eq_turned hPos h, Stack.turned_self h]
    · rintro rfl
      match s, h with
      | a :: b :: c :: rest, _ =>
          exact dispatch_roll_three depth a b c rest
    · rintro rfl
      match s, h with
      | a :: b :: rest, _ =>
          exact dispatch_roll_two depth a b rest
  · rintro z hs hOutside hShort op (rfl | rfl)
    · exact dispatch_rolls_of_outside .roll hs hShort
        hOutside depth
    · exact dispatch_rolls_of_outside .rollDown hs hShort
        hOutside depth

/-
  Four values with a window of three: after four times ROLL
  it is rotated once, and a window of five is refused.
-/
theorem roll_turns_window_four :
    (∃ window,
      rollTimes 1 3 4
          [ .integer 1, .boolean true, .integer 7,
            .boolean false ] =
          .ok (window ++ [.boolean false]) ∧
        window.reverse =
          [.boolean true, .integer 1, .integer 7]) ∧
      rollTimes 1 3 3
          [ .integer 1, .boolean true, .integer 7,
            .boolean false ] =
        .ok
          [ .integer 1, .boolean true, .integer 7,
            .boolean false ] ∧
      ∃ cause,
        dispatch 1 StackOp.rollDown.name
            [ .integer 5, .integer 1, .boolean true,
              .integer 7, .boolean false ] =
          .error
            ⟨.fault (.corruption cause StackOp.rollDown.name),
              [ .integer 1, .boolean true, .integer 7,
                .boolean false ]⟩ := by
  have hWindows :=
    roll_turns_window 0
      [ .integer 1, .boolean true, .integer 7,
        .boolean false ]
  rcases hWindows.1 3 (by decide) (by decide) with
    ⟨-, -, hTimes, hRound, -, -⟩
  rcases hTimes 4 with ⟨window, hRun, hWindow, -⟩
  exact ⟨⟨window, hRun, hWindow⟩, hRound,
    hWindows.2 5 (by simp) (.inr (by decide))
      (Decimal.isShort_of_fits (by decide)) .rollDown
      (.inr rfl)⟩

end Run

end StackCalc
