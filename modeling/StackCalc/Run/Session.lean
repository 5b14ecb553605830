import StackCalc.Run.Basic

/-
  This file defines sessions: programs that run one after
  another on one stack. A program that fails leaves its
  stack to the next.

  Key definitions include:
    * `StackCalc.Request`
    * `StackCalc.Session.answer`
    * `StackCalc.Session.after`
-/

------------------------------------------------------------
-- Requests
------------------------------------------------------------

namespace StackCalc

/- What a session can be asked to do. -/
inductive Request where
  | run (lines : List Text)
  | reset
deriving Repr, DecidableEq

namespace Session

/- The outcome of a request on the stack of a session. -/
def answer
    (s : Stack)
    (request : Request)
    (depth : Nat := Run.maxDepth) : Outcome :=
  match request with
  | .run lines => Run.program lines s depth
  | .reset => .ok []

/- The stack that an outcome leaves. -/
def left : Outcome → Stack
  | .ok s => s
  | .error f => f.stack

/- The stack of a session after some requests. -/
def after
    (requests : List Request)
    (s : Stack)
    (depth : Nat := Run.maxDepth) : Stack :=
  requests.foldl (fun s r => left (answer s r depth)) s

end Session

end StackCalc
