import StackCalc.Run.Basic
import StackCalc.Text.Quoted

/-
  This file tells what happens while a program runs: which
  blocks are run, as what lines, and which texts are
  evaluated.

  Key definitions include:
    * `StackCalc.Event`
    * `StackCalc.Event.message`
    * `StackCalc.Trace.dispatch`
    * `StackCalc.Trace.program`
-/

------------------------------------------------------------
-- Events
------------------------------------------------------------

namespace StackCalc

/- Something that happens while a program runs. -/
inductive Event where
  | applied (source line : Text)
  | evaluated (t : Text)
deriving Repr, DecidableEq

namespace Event

/- The message about an event. -/
def message : Event → Text
  | applied source line =>
      "lambda ".toList ++ Text.quoted source ++
        " applied as ".toList ++ Text.quoted line
  | evaluated t =>
      "EVAL re-dispatching ".toList ++ Text.quoted t

end Event

end StackCalc

------------------------------------------------------------
-- Traces
------------------------------------------------------------

namespace StackCalc

namespace Trace

/-
  What happens while tokens are carried out by `step`, if
  `trace` tells it of a single one. After a failure nothing
  more happens.
-/
def tokens
    (step : Text → Stack → Outcome)
    (trace : Text → Stack → List Event) :
    List Text → Stack → List Event
  | [], _ => []
  | t :: ts, s =>
      trace t s ++
        match step t s with
        | .ok s' => tokens step trace ts s'
        | .error _ => []

/- What happens while a value is evaluated. -/
def evaluate
    (trace : Text → Stack → List Event) :
    Stack → List Event
  | [] => []
  | v :: rest =>
      match v.render with
      | some t => .evaluated t :: trace t rest
      | none => []

/- What happens while a block is run. -/
def applyBlock
    (step : Text → Stack → Outcome)
    (trace : Text → Stack → List Event)
    (source : Text)
    (s : Stack) : List Event :=
  let line := do
    let b ← Block.parse source
    let (args, _) ← Stack.popMany b.arity source s
    b.substitute args
  match line with
  | .ok line =>
      .applied source line ::
        tokens step trace (Token.split line) []
  | .error _ => []

/- What happens while a token is carried out. -/
def dispatch : Nat → Text → Stack → List Event
  | 0, _, _ => []
  | depth + 1, t, s =>
      match Operator.ofName? t with
      | some (.unary .evaluate) => evaluate (dispatch depth) s
      | some _ => []
      | none =>
          match t with
          | '{' :: _ =>
              applyBlock (Run.dispatch depth)
                (dispatch depth) t s
          | _ => []

/- What happens while a program runs. -/
def program
    (lines : List Text)
    (s : Stack)
    (depth : Nat := Run.maxDepth) : List Event :=
  tokens
    (Run.dispatch depth)
    (dispatch depth)
    (Run.tokensOf lines)
    s

end Trace

end StackCalc
