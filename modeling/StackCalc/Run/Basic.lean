import StackCalc.Arithmetic.Binary
import StackCalc.Block.Basic
import StackCalc.Literal.Basic
import StackCalc.Stack.Basic
import StackCalc.Text.Lines
import StackCalc.Token.Basic

/-
  This file runs programs. A token is carried out on the
  stack: an operator is applied, a block is run on a stack
  of its own, and a literal is pushed. An operator with too
  few values is pushed itself.

  Running may go in circles, through blocks that evaluate
  themselves. The depth says how many tokens may be carried
  out inside one another.

  Key definitions include:
    * `StackCalc.Run.evaluate`
    * `StackCalc.Run.perform`
    * `StackCalc.Run.tokens`
    * `StackCalc.Run.applyBlock`
    * `StackCalc.Run.dispatch`
    * `StackCalc.Run.program`
-/

------------------------------------------------------------
-- Operators
------------------------------------------------------------

namespace StackCalc

namespace Run

/- A failure with a fault. -/
def failing
    (f : Fault)
    (s : Stack) : Outcome :=
  .error ⟨.fault f, s⟩

/-
  Evaluate a popped value: carry out its text as a token,
  by `step`.
-/
def evaluate
    (step : Text → Stack → Outcome)
    (v : Value)
    (rest : Stack) : Outcome :=
  match v.render with
  | some t => step t rest
  | none => .error ⟨.tooManyDigits, rest⟩

/- Carry out a unary operator on the value it popped. -/
def unary
    (step : Text → Stack → Outcome)
    (op : UnaryOp)
    (v : Value)
    (rest : Stack) : Outcome :=
  match op, v with
  | .negate, .boolean b => .ok (.boolean (!b) :: rest)
  | .negate, v =>
      failing (.typing (.needsBoolean op.name v.kind)) rest
  | .complement, .integer z => .ok (.integer (-z - 1) :: rest)
  | .complement, v =>
      failing (.typing (.needsInteger op.name v.kind)) rest
  | .transpose, .matrix m => .ok (.matrix m.transpose :: rest)
  | .transpose, v =>
      failing (.typing (.needsMatrix op.name v.kind)) rest
  | .evaluate, v => evaluate step v rest

/- Carry out a binary operator on the values it popped. -/
def binary
    (op : BinaryOp)
    (l r : Value)
    (rest : Stack) : Outcome :=
  match Binary.apply op l r with
  | .ok v => .ok (v :: rest)
  | .error f => failing f rest

/- Move a window whose size was popped. -/
def roll
    (op : StackOp)
    (towardTop : Bool)
    (size : Value)
    (rest : Stack) : Outcome :=
  match size with
  | .integer n =>
      match Stack.rotateWindow n towardTop op.name rest with
      | .ok s => .ok s
      | .error e => .error ⟨e, rest⟩
  | v => failing (.typing (.needsWindow op.name v.kind)) rest

/- Choose between two values by a popped condition. -/
def choose
    (condition onFalse onTrue : Value)
    (rest : Stack) : Outcome :=
  match condition with
  | .boolean b =>
      .ok ((if b then onTrue else onFalse) :: rest)
  | v =>
      failing
        (.typing
          (.needsCondition Operator.conditional.name v.kind))
        rest

/-
  Carry out an operator. With too few values the operator
  itself is pushed.
-/
def perform
    (step : Text → Stack → Outcome) :
    Operator → Stack → Outcome
  | .unary op, v :: rest => unary step op v rest
  | .binary op, r :: l :: rest => binary op l r rest
  | .stack .drop, _ :: rest => .ok rest
  | .stack .duplicate, v :: rest => .ok (v :: v :: rest)
  | .stack .swap, a :: b :: rest => .ok (b :: a :: rest)
  | .stack .rotate, a :: b :: c :: rest =>
      .ok (c :: a :: b :: rest)
  | .stack .roll, n :: v :: rest =>
      roll .roll true n (v :: rest)
  | .stack .rollDown, n :: v :: rest =>
      roll .rollDown false n (v :: rest)
  | .conditional, c :: f :: t :: rest => choose c f t rest
  | op, s => .ok (.deferred op.name :: s)

end Run

end StackCalc

------------------------------------------------------------
-- Tokens
------------------------------------------------------------

namespace StackCalc

namespace Run

/- Carry out tokens one after another. -/
def tokens
    (step : Text → Stack → Outcome) :
    List Text → Stack → Outcome
  | [], s => .ok s
  | t :: ts, s =>
      match step t s with
      | .ok s' => tokens step ts s'
      | .error f => .error f

/- Push a literal. -/
def literal
    (t : Text)
    (s : Stack) : Outcome :=
  match Literal.parse t with
  | .ok v => .ok (v :: s)
  | .error e => .error ⟨e, s⟩

/-
  Push what stands after an apostrophe: an operator or a
  block without carrying it out, or a literal.
-/
def quote
    (t : Text)
    (s : Stack) : Outcome :=
  if Operator.isName t || t.head? = some '{' then
    .ok (.deferred t :: s)
  else
    literal t s

/-
  Run a block: take its values, run its line on an empty
  stack, and push what the line leaves there.
-/
def applyBlock
    (step : Text → Stack → Outcome)
    (source : Text)
    (s : Stack) : Outcome :=
  match Block.parse source with
  | .error e => .error ⟨e, s⟩
  | .ok b =>
      match Stack.popMany b.arity source s with
      | .error e => .error ⟨e, s⟩
      | .ok (args, rest) =>
          match b.substitute args with
          | .error e => .error ⟨e, rest⟩
          | .ok line =>
              match tokens step (Token.split line) [] with
              | .error f => .error ⟨f.cause, rest⟩
              | .ok scope => .ok (scope ++ rest)

/- Carry out a token. -/
def dispatch : Nat → Text → Stack → Outcome
  | 0, _, s => .error ⟨.outOfDepth, s⟩
  | depth + 1, t, s =>
      match Operator.ofName? t with
      | some op => perform (dispatch depth) op s
      | none =>
          match t with
          | '\'' :: rest => quote rest s
          | '{' :: _ => applyBlock (dispatch depth) t s
          | _ => literal t s

end Run

end StackCalc

------------------------------------------------------------
-- Programs
------------------------------------------------------------

namespace StackCalc

namespace Run

/-
  How many tokens may be carried out inside one another if
  nothing else is said.
-/
def maxDepth : Nat :=
  400

/- The tokens of a program, line after line. -/
def tokensOf (lines : List Text) : List Text :=
  lines.flatMap fun line =>
    Token.split (Text.dropLineFeeds line)

/- Being out of depth is a fault of the program. -/
def reported (r : Outcome) : Outcome :=
  match r with
  | .error ⟨.outOfDepth, s⟩ => .error ⟨.fault .tooDeep, s⟩
  | r => r

/- Run a program, as deep as there is room for. -/
def program
    (lines : List Text)
    (s : Stack)
    (depth : Nat := maxDepth) : Outcome :=
  reported (tokens (dispatch depth) (tokensOf lines) s)

end Run

end StackCalc
