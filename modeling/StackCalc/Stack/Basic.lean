import StackCalc.Decimal.Integer
import StackCalc.Fault.Basic

/-
  This file defines the stack and what can be done with it
  regardless of the values on it. A stack is the list of
  its values, the top one first.

  Key definitions include:
    * `StackCalc.Stack`
    * `StackCalc.Stack.popMany`
    * `StackCalc.Stack.peek`
    * `StackCalc.Stack.swapTop`
    * `StackCalc.Stack.rotateWindow`
    * `StackCalc.Failure`
    * `StackCalc.Outcome`
-/

------------------------------------------------------------
-- Stacks
------------------------------------------------------------

namespace StackCalc

/- The values on a stack, the top one first. -/
abbrev Stack :=
  List Value

/- Why a computation stopped, and the stack it left. -/
structure Failure where
  cause : Stop
  stack : Stack

/- The stack that a computation ends with, or a failure. -/
abbrev Outcome :=
  Except Failure Stack

end StackCalc

------------------------------------------------------------
-- Requirements
------------------------------------------------------------

namespace StackCalc

namespace Stack

/-
  The complaint of `token` about a stack, which tells the
  number `n`. A number with too many digits cannot be told.
-/
def complaint
    (token : Text)
    (cause : StackFault)
    (n : Int) : Stop :=
  if Decimal.isShort n then
    .fault (.corruption cause token)
  else
    .tooManyDigits

/- The stack, if it holds as many values as needed. -/
def require
    (needed : Int)
    (token : Text)
    (s : Stack) : Except Stop Stack :=
  if needed ≤ s.length then .ok s
  else
    .error (complaint token
      (.tooShort needed s.length) needed)

/- The top values, from the top down, and the others. -/
def popMany
    (count : Int)
    (token : Text)
    (s : Stack) : Except Stop (List Value × Stack) :=
  if count < 0 then
    .error (complaint token (.negativeCount count) count)
  else
    match require count token s with
    | .error e => .error e
    | .ok s =>
        .ok (s.take count.toNat, s.drop count.toNat)

/- The top value and the others. -/
def pop
    (token : Text) :
    Stack → Except Stop (Value × Stack)
  | [] => .error (complaint token (.tooShort 1 0) 1)
  | v :: rest => .ok (v, rest)

/- The top value. -/
def peek
    (token : Text)
    (s : Stack) : Except Stop Value :=
  (pop token s).map Prod.fst

end Stack

end StackCalc

------------------------------------------------------------
-- Rearrangement
------------------------------------------------------------

namespace StackCalc

namespace Stack

/- Exchange the top two values. -/
def swapTop
    (token : Text) :
    Stack → Except Stop Stack
  | a :: b :: rest => .ok (b :: a :: rest)
  | s =>
      .error (complaint token (.tooShort 2 s.length) 2)

/-
  Move the values of the window at the top round by one:
  the deepest of them to the top, or the top one to the
  bottom of the window.
-/
def rotateTop
    (size : Nat)
    (towardTop : Bool)
    (s : Stack) : Stack :=
  let window := s.take size
  let moved :=
    if towardTop then window.rotateRight 1
    else window.rotateLeft 1
  moved ++ s.drop size

/- Move the values of a window that the stack holds. -/
def rotateWindow
    (size : Int)
    (towardTop : Bool)
    (token : Text)
    (s : Stack) : Except Stop Stack :=
  if size < 1 then
    .error (complaint token (.emptyWindow size) size)
  else
    match require size token s with
    | .error e => .error e
    | .ok s => .ok (rotateTop size.toNat towardTop s)

end Stack

end StackCalc
