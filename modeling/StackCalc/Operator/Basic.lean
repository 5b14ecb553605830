import StackCalc.Text.Basic

/-
  This file defines the operators, their names, and how
  many values each of them needs.

  Key definitions include:
    * `StackCalc.UnaryOp`
    * `StackCalc.BinaryOp`
    * `StackCalc.StackOp`
    * `StackCalc.Operator`
    * `StackCalc.Operator.ofName?`
    * `StackCalc.Operator.arity`
    * `StackCalc.Family`
-/

------------------------------------------------------------
-- Operators
------------------------------------------------------------

namespace StackCalc

/- Operators on the top value. -/
inductive UnaryOp where
  | negate
  | complement
  | transpose
  | evaluate
deriving Repr, DecidableEq

/- Operators on the top two values. -/
inductive BinaryOp where
  | add
  | subtract
  | multiply
  | divide
  | power
  | remainder
  | equal
  | unequal
  | greater
  | less
  | greaterEqual
  | lessEqual
  | compare
  | conjoin
  | disjoin
  | exclude
  | shiftLeft
  | shiftRight
  | cross
deriving Repr, DecidableEq

/- Operators that rearrange the stack. -/
inductive StackOp where
  | drop
  | duplicate
  | swap
  | rotate
  | roll
  | rollDown
deriving Repr, DecidableEq

/- An operator; the conditional chooses between values. -/
inductive Operator where
  | unary (op : UnaryOp)
  | binary (op : BinaryOp)
  | stack (op : StackOp)
  | conditional
deriving Repr, DecidableEq

end StackCalc

------------------------------------------------------------
-- Names
------------------------------------------------------------

namespace StackCalc

namespace UnaryOp

/- The name of a unary operator. -/
def name : UnaryOp → Text
  | negate => "!".toList
  | complement => "~".toList
  | transpose => "TRANSP".toList
  | evaluate => "EVAL".toList

end UnaryOp

namespace BinaryOp

/- The name of a binary operator. -/
def name : BinaryOp → Text
  | add => "+".toList
  | subtract => "-".toList
  | multiply => "*".toList
  | divide => "/".toList
  | power => "**".toList
  | remainder => "%".toList
  | equal => "==".toList
  | unequal => "!=".toList
  | greater => ">".toList
  | less => "<".toList
  | greaterEqual => ">=".toList
  | lessEqual => "<=".toList
  | compare => "<=>".toList
  | conjoin => "&".toList
  | disjoin => "|".toList
  | exclude => "^".toList
  | shiftLeft => "<<".toList
  | shiftRight => ">>".toList
  | cross => "x".toList

/- All binary operators. -/
def all : List BinaryOp :=
  [ add, subtract, multiply, divide, power, remainder,
    equal, unequal, greater, less, greaterEqual, lessEqual,
    compare, conjoin, disjoin, exclude, shiftLeft,
    shiftRight, cross ]

/- The binary operator with a name. -/
def ofName? (t : Text) : Option BinaryOp :=
  all.find? fun op => op.name = t

end BinaryOp

namespace StackOp

/- The name of a stack operator. -/
def name : StackOp → Text
  | drop => "DROP".toList
  | duplicate => "DUP".toList
  | swap => "SWAP".toList
  | rotate => "ROT".toList
  | roll => "ROLL".toList
  | rollDown => "ROLLD".toList

/- All stack operators. -/
def all : List StackOp :=
  [drop, duplicate, swap, rotate, roll, rollDown]

/- The stack operator with a name. -/
def ofName? (t : Text) : Option StackOp :=
  all.find? fun op => op.name = t

end StackOp

namespace Operator

/- The name of an operator. -/
def name : Operator → Text
  | unary op => op.name
  | binary op => op.name
  | stack op => op.name
  | conditional => "IFELSE".toList

/- All operators. -/
def all : List Operator :=
  [UnaryOp.negate, .complement, .transpose, .evaluate].map
      unary ++
    BinaryOp.all.map binary ++
    StackOp.all.map stack ++
    [conditional]

/- The operator with a name. -/
def ofName? (t : Text) : Option Operator :=
  all.find? fun op => op.name = t

/- Whether a text names an operator. -/
def isName (t : Text) : Bool :=
  (ofName? t).isSome

/- The names of all operators, in order. -/
def sortedNames : List Text :=
  (all.map name).mergeSort fun s t =>
    Text.order s t ≠ .gt

end Operator

end StackCalc

------------------------------------------------------------
-- Families And Arities
------------------------------------------------------------

namespace StackCalc

/- The families that operators come in. -/
inductive Family where
  | unary
  | binary
  | stack
  | conditional
deriving Repr, DecidableEq

namespace Family

/- The name of a family. -/
def name : Family → Text
  | unary => "unary".toList
  | binary => "binary".toList
  | stack => "stack".toList
  | conditional => "conditional".toList

end Family

namespace StackOp

/- How many values a stack operator needs. -/
def arity : StackOp → Nat
  | drop => 1
  | duplicate => 1
  | swap => 2
  | rotate => 3
  | roll => 2
  | rollDown => 2

end StackOp

namespace Family

/-
  How many values the operator with a name needs as one of
  a family. Only stack operators differ among themselves.
-/
def arity? : Family → Text → Option Nat
  | unary, _ => some 1
  | binary, _ => some 2
  | stack, t => (StackOp.ofName? t).map StackOp.arity
  | conditional, _ => some 3

end Family

namespace Operator

/- The family of an operator. -/
def family : Operator → Family
  | unary _ => .unary
  | binary _ => .binary
  | stack _ => .stack
  | conditional => .conditional

/- How many values an operator needs. -/
def arity : Operator → Nat
  | unary _ => 1
  | binary _ => 2
  | stack op => op.arity
  | conditional => 3

end Operator

end StackCalc

------------------------------------------------------------
-- Names And Operators
------------------------------------------------------------

namespace StackCalc

namespace Operator

/- Every operator is found by its name. -/
@[simp] theorem ofName?_name
    (op : Operator) :
    ofName? op.name = some op := by
  cases op with
  | unary op =>
      cases op <;> decide
  | binary op =>
      cases op <;> decide
  | stack op =>
      cases op <;> decide
  | conditional =>
      decide

/- A name that is found is the operator's. -/
theorem name_of_ofName?
    {t : Text}
    {op : Operator}
    (h : ofName? t = some op) :
    op.name = t := by
  simpa using List.find?_some h

/- The family gives each of its operators its arity. -/
theorem arity?_family
    (op : Operator) :
    op.family.arity? op.name = some op.arity := by
  cases op with
  | unary op =>
      rfl
  | binary op =>
      rfl
  | stack op =>
      cases op <;> decide
  | conditional =>
      rfl

end Operator

end StackCalc
