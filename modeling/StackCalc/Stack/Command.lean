import StackCalc.Operator.Basic
import StackCalc.Stack.Basic
import StackCalc.Value.Render

/-
  This file defines the commands by which a stack is used
  from outside of programs.

  Key definitions include:
    * `StackCalc.StackCommand`
    * `StackCalc.StackAnswer`
    * `StackCalc.StackCommand.run`
    * `StackCalc.Stack.pushAll`
    * `StackCalc.Stack.inspect?`
-/

------------------------------------------------------------
-- Commands
------------------------------------------------------------

namespace StackCalc

/-
  A command to a stack. An item to push may be something
  other than a value, here `none`, which the stack refuses.
-/
inductive StackCommand where
  | push (item : Option Value)
  | pushAll (items : List (Option Value))
  | pop (token : Text)
  | popMany (count : Int) (token : Text)
  | peek (token : Text)
  | drop
  | duplicate
  | swap
  | rotate
  | clear
  | rotateWindow
      (size : Int)
      (towardTop : Bool)
      (token : Text)
  | length
  | inspect

/- What a stack answers to a command. -/
inductive StackAnswer where
  | nothing
  | value (v : Value)
  | values (vs : List Value)
  | number (n : Nat)
  | text (t : Text)

/- Why a stack does not carry out a command. -/
inductive Refusal where
  | stopped (cause : Stop)
  | notAValue

end StackCalc

------------------------------------------------------------
-- Answers
------------------------------------------------------------

namespace StackCalc

namespace Stack

/-
  Push items one after another, up to the first that is
  not a value, and say whether all of them were pushed.
-/
def pushAll :
    List (Option Value) → Stack → Bool × Stack
  | [], s => (true, s)
  | none :: _, s => (false, s)
  | some v :: items, s => pushAll items (v :: s)

/- The values of a stack in a diagnostic list. -/
def inspect? (s : Stack) : Option Text :=
  (s.reverse.mapM Value.inspect).map fun ts =>
    "OperandStack([".toList ++
      Text.joinWith ", ".toList ts ++ "])".toList

end Stack

namespace StackCommand

/- A stack that answers nothing, or an unchanged one. -/
def silently
    (s : Stack)
    (r : Except Stop Stack) :
    Except Refusal StackAnswer × Stack :=
  match r with
  | .error e => (.error (.stopped e), s)
  | .ok s' => (.ok .nothing, s')

/- The answer of a stack to a command, and the stack. -/
def run
    (s : Stack) :
    StackCommand → Except Refusal StackAnswer × Stack
  | push item =>
      match Stack.pushAll [item] s with
      | (true, s') => (.ok .nothing, s')
      | (false, s') => (.error .notAValue, s')
  | pushAll items =>
      match Stack.pushAll items s with
      | (true, s') => (.ok .nothing, s')
      | (false, s') => (.error .notAValue, s')
  | pop token =>
      match Stack.pop token s with
      | .error e => (.error (.stopped e), s)
      | .ok (v, s') => (.ok (.value v), s')
  | popMany count token =>
      match Stack.popMany count token s with
      | .error e => (.error (.stopped e), s)
      | .ok (vs, s') => (.ok (.values vs), s')
  | peek token =>
      match Stack.peek token s with
      | .error e => (.error (.stopped e), s)
      | .ok v => (.ok (.value v), s)
  | drop =>
      silently s
        ((Stack.pop StackOp.drop.name s).map Prod.snd)
  | duplicate =>
      silently s
        ((Stack.peek StackOp.duplicate.name s).map
          fun v => v :: s)
  | swap => silently s (Stack.swapTop StackOp.swap.name s)
  | rotate =>
      silently s
        (Stack.rotateWindow 3 true StackOp.rotate.name s)
  | clear => (.ok .nothing, [])
  | rotateWindow size towardTop token =>
      silently s (Stack.rotateWindow size towardTop token s)
  | length => (.ok (.number s.length), s)
  | inspect =>
      match Stack.inspect? s with
      | some t => (.ok (.text t), s)
      | none => (.error (.stopped .tooManyDigits), s)

end StackCommand

end StackCalc
