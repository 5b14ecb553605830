import StackCalc.Fault.Incident
import StackCalc.Run.Session

/-
  A machine that runs programs with nothing sorted out in
  advance.

  Its parts break off as they are: a table may lack a key
  and a list an entry, a handler may not know the operator
  it is given, a number may be too great for a double, the
  stack may hold things that are no values, and the array
  unit may refuse to work. None of that is a fault of the
  program. It is an incident, which ends the run as it is
  unless somebody sorts it.

  Key definitions include:
    * `StackCalc.Raw.Thing`
    * `StackCalc.Raw.Break`
    * `StackCalc.Raw.Act`
    * `StackCalc.Raw.ArrayUnit`
    * `StackCalc.Raw.ArrayUnit.Handles`
    * `StackCalc.Raw.apply`
    * `StackCalc.Raw.perform`
    * `StackCalc.Raw.dispatch`
    * `StackCalc.Raw.program`
-/

------------------------------------------------------------
-- Incidents
------------------------------------------------------------

namespace StackCalc

namespace Incident

/- A thing is of a type that there is no kind for. -/
def unknownType (type : Text) : Incident :=
  ⟨.argument, "unknown type".toList, some type⟩

/- A table has no entry for a key. -/
def missingEntry (key : Text) : Incident :=
  ⟨.missingKey, "missing entry".toList, some key⟩

/- A list is too short. -/
def outOfBounds : Incident :=
  ⟨.other, "out of bounds".toList, none⟩

/- A handler does not know an operator. -/
def unhandled (name : Text) : Incident :=
  ⟨.other, "unhandled operator".toList, some name⟩

/- A number is too great. -/
def beyondRange : Incident :=
  ⟨.arithmetic, "beyond range".toList, none⟩

/- A number has too many digits to be read or written. -/
def tooManyDigits : Incident :=
  ⟨.argument, "too many digits".toList, none⟩

/- Tokens are nested too deeply. -/
def tooDeep : Incident :=
  ⟨.recursion, "too deep".toList, none⟩

end Incident

end StackCalc

------------------------------------------------------------
-- Computations
------------------------------------------------------------

namespace StackCalc

namespace Raw

/- What a stack may hold: values and things that are none. -/
inductive Thing where
  | value (v : Value)
  | foreign (type : Text)

/-
  What breaks a computation off: a fault, an incident that
  has been sorted, or one that has not.
-/
inductive Break where
  | fault (f : Fault)
  | sorted (c : Classified)
  | incident (i : Incident)

/- How the machine breaks off where a computation stops. -/
def Break.ofStop : Stop → Break
  | .fault f => fault f
  | .tooManyDigits => incident .tooManyDigits
  | .outOfDepth => incident .tooDeep

/- Things on top of one another, the top one first. -/
abbrev Pile :=
  List Thing

/-
  A computation on a pile. It leaves a pile also when it
  breaks off.
-/
structure Act (α : Type) where
  run : Pile → Except Break α × Pile

instance : Monad Act where
  pure a := ⟨fun p => (.ok a, p)⟩
  bind x f := ⟨fun p =>
    match x.run p with
    | (.ok a, q) => (f a).run q
    | (.error b, q) => (.error b, q)⟩

variable {α β : Type}

/- Give what there is, without touching the pile. -/
def give (r : Except Break α) : Act α :=
  ⟨fun p => (r, p)⟩

/- Break off. -/
def raise (b : Break) : Act α :=
  give (.error b)

@[simp] theorem mapError_ok
    {ε ε' : Type}
    (f : ε → ε')
    (a : α) :
    (.ok a : Except ε α).mapError f = .ok a :=
  rfl

@[simp] theorem mapError_error
    {ε ε' : Type}
    (f : ε → ε')
    (e : ε) :
    (.error e : Except ε α).mapError f = .error (f e) :=
  rfl

@[simp] theorem run_pure
    (a : α)
    (p : Pile) :
    (pure a : Act α).run p = (.ok a, p) :=
  rfl

theorem run_bind
    (x : Act α)
    (f : α → Act β)
    (p : Pile) :
    (x >>= f).run p =
      match x.run p with
      | (.ok a, q) => (f a).run q
      | (.error b, q) => (.error b, q) :=
  rfl

@[simp] theorem run_give
    (r : Except Break α)
    (p : Pile) :
    (give r).run p = (r, p) :=
  rfl

@[simp] theorem run_raise
    (b : Break)
    (p : Pile) :
    (raise b : Act α).run p = (.error b, p) :=
  rfl

end Raw

end StackCalc

------------------------------------------------------------
-- The Pile
------------------------------------------------------------

namespace StackCalc

namespace Raw

/- The value that a thing is. -/
def known : Thing → Act Value
  | .value v => pure v
  | .foreign type => raise (.incident (.unknownType type))

/- A thing as a value that is written like it. -/
def Thing.shown : Thing → Value
  | value v => v
  | foreign type => .deferred type

/- Put a thing that is a value on top. -/
def push (x : Thing) : Act Unit := do
  let _ ← known x
  ⟨fun p => (.ok (), x :: p)⟩

/- Put things on top one by one. -/
def pushAll : List Thing → Act Unit
  | [] => pure ()
  | x :: xs => do
      push x
      pushAll xs

/- How many things there are. -/
def size : Act Nat :=
  ⟨fun p => (.ok p.length, p)⟩

/- There must be as many things as needed. -/
def require
    (needed : Int)
    (token : Text) : Act Unit :=
  ⟨fun p =>
    if needed ≤ p.length then (.ok (), p)
    else
      (.error (.ofStop (Stack.complaint token
        (.tooShort needed p.length) needed)), p)⟩

/- Take off the top thing. -/
def pop (token : Text) : Act Thing := do
  require 1 token
  ⟨fun p =>
    match p with
    | x :: rest => (.ok x, rest)
    | [] => (.error (.incident .outOfBounds), p)⟩

/- Look at the top thing. -/
def peek (token : Text) : Act Thing := do
  require 1 token
  ⟨fun p =>
    match p with
    | x :: _ => (.ok x, p)
    | [] => (.error (.incident .outOfBounds), p)⟩

/- Exchange the top two things. -/
def swapTop (token : Text) : Act Unit := do
  require 2 token
  ⟨fun p =>
    match p with
    | x :: y :: rest => (.ok (), y :: x :: rest)
    | _ => (.error (.incident .outOfBounds), p)⟩

/- Take off the top things, from the top down. -/
def popMany
    (count : Int)
    (token : Text) : Act (List Thing) :=
  if count < 0 then
    raise (.ofStop (Stack.complaint token
      (.negativeCount count) count))
  else do
    require count token
    ⟨fun p => (.ok (p.take count.toNat), p.drop count.toNat)⟩

/- Move the things of the window at the top round by one. -/
def rotateTop
    (size : Nat)
    (towardTop : Bool)
    (p : Pile) : Pile :=
  let window := p.take size
  let moved :=
    if towardTop then window.rotateRight 1
    else window.rotateLeft 1
  moved ++ p.drop size

/- Move the things of a window that the pile holds. -/
def rotateWindow
    (size : Int)
    (towardTop : Bool)
    (token : Text) : Act Unit :=
  if size < 1 then
    raise (.ofStop (Stack.complaint token
      (.emptyWindow size) size))
  else do
    require size token
    ⟨fun p => (.ok (), rotateTop size.toNat towardTop p)⟩

end Raw

end StackCalc

------------------------------------------------------------
-- Binary Operators
------------------------------------------------------------

namespace StackCalc

namespace Operand

/- Whether an operand is an array. -/
def isArray : Operand → Bool
  | vector _ => true
  | matrix _ => true
  | _ => false

end Operand

namespace Fault

/-
  Whether a fault is found by what works out operators on
  arrays, rather than by the checks before: a matrix that
  has no inverse, or a result that there is no room for.
-/
def isOfUnit : Fault → Bool
  | arithmetic .singular _ => true
  | arithmetic .beyondRange _ => true
  | _ => false

end Fault

namespace Raw

/-
  What works on arrays: it makes them of numbers, lists
  their entries, transposes matrices and works out binary
  operators, once the shapes of the operands and the sizes
  of the results have been checked. It may refuse to do any
  of it, and gives nothing where it should invert a matrix
  that it finds to be singular.
-/
structure ArrayUnit where
  make : Value → Except Incident Value
  list : Value → Except Incident Value
  transpose : NumMatrix → Except Incident NumMatrix
  work :
    BinaryOp → Operand → Operand →
      Except Incident (Option Value)

/-
  An array unit that handles all arrays: it can make them,
  list their entries and transpose them.
-/
structure ArrayUnit.Handles (unit : ArrayUnit) : Prop where
  make : ∀ v, unit.make v = .ok v
  list : ∀ v, unit.list v = .ok v
  transpose : ∀ m, unit.transpose m = .ok m.transpose

/- What comes of the work of an array unit. -/
def worked
    (op : BinaryOp) :
    Except Incident (Option Value) → Except Break Value
  | .error i => .error (.incident i)
  | .ok none =>
      .error (.fault (arithmeticFault op .singular))
  | .ok (some v) => .ok v

/-
  A fault as it comes up. Faults that stand for incidents
  come up as incidents.
-/
def Break.ofFault : Fault → Break
  | .arithmetic .beyondRange _ => incident .beyondRange
  | .typing (.unspeakable _) => incident .tooManyDigits
  | f => fault f

/-
  Carry an operator out on operands, given what it comes to
  by the rules. Arrays are left to the array unit, unless a
  check has found something wrong before.
-/
def carryOut
    (unit : ArrayUnit)
    (op : BinaryOp)
    (a b : Operand)
    (r : Except Fault Value) : Except Break Value :=
  if a.isArray || b.isArray then
    match r with
    | .error f =>
        if f.isOfUnit then worked op (unit.work op a b)
        else .error (.ofFault f)
    | .ok _ => worked op (unit.work op a b)
  else r.mapError .ofFault

/-
  What an operator's name and two operands have an entry
  for in the table of operations.
-/
def operation?
    (unit : ArrayUnit)
    (name : Text)
    (a b : Operand) : Option (Except Break Value) := do
  let op ← BinaryOp.ofName? name
  let r ← Binary.combine op a b
  return carryOut unit op a b r

/-
  Sort an incident of arithmetic or of arguments, and let
  any other pass.
-/
def sorting
    (name : Text) :
    Except Break Value → Except Break Value
  | .error (.incident i) =>
      if i.group = .arithmetic ∨ i.group = .argument then
        .error (.sorted (i.classify (some name)))
      else .error (.incident i)
  | r => r

/- Apply the operator with a name to two things. -/
def apply
    (unit : ArrayUnit)
    (name : Text)
    (l r : Thing) : Act Value := do
  let a ← known l
  let b ← known r
  match operation? unit name a.operand b.operand with
  | none =>
      raise (.fault (.typing (.undefined name a.kind b.kind)))
  | some result => give (sorting name result)

end Raw

end StackCalc

------------------------------------------------------------
-- Handlers
------------------------------------------------------------

namespace StackCalc

namespace Raw

/- A thing as a value that is to be written. -/
def listed
    (unit : ArrayUnit)
    (x : Thing) : Except Break Value :=
  match x.shown with
  | .vector v => (unit.list (.vector v)).mapError .incident
  | .matrix m => (unit.list (.matrix m)).mapError .incident
  | v => .ok v

/- Evaluate a thing: carry out its text as a token. -/
def evaluate
    (unit : ArrayUnit)
    (step : Text → Act Unit)
    (x : Thing) : Act Unit := do
  let v ← give (listed unit x)
  match v.render with
  | some t => step t
  | none => raise (.incident .tooManyDigits)

/- The handler of unary operators. -/
def unary
    (unit : ArrayUnit)
    (step : Text → Act Unit)
    (name : Text) : Act Unit := do
  let x ← pop name
  if name = UnaryOp.evaluate.name then
    evaluate unit step x
  else do
    let v ← known x
    if name = UnaryOp.negate.name then
      match v with
      | .boolean b => push (.value (.boolean (!b)))
      | v => raise (.fault (.typing (.needsBoolean name v.kind)))
    else if name = UnaryOp.complement.name then
      match v with
      | .integer z => push (.value (.integer (-z - 1)))
      | v => raise (.fault (.typing (.needsInteger name v.kind)))
    else if name = UnaryOp.transpose.name then
      match v with
      | .matrix m => do
          let m' ← give ((unit.transpose m).mapError .incident)
          push (.value (.matrix m'))
      | v => raise (.fault (.typing (.needsMatrix name v.kind)))
    else
      raise (.incident (.unhandled name))

/- The handler of binary operators. -/
def binary
    (unit : ArrayUnit)
    (name : Text) : Act Unit := do
  let r ← pop name
  let l ← pop name
  let v ← apply unit name l r
  push (.value v)

/- Move a window whose size is on top. -/
def roll
    (towardTop : Bool)
    (name : Text) : Act Unit := do
  let x ← pop name
  let v ← known x
  match v with
  | .integer n => rotateWindow n towardTop name
  | v => raise (.fault (.typing (.needsWindow name v.kind)))

/- The handler of stack operators. -/
def rearrange (name : Text) : Act Unit :=
  if name = StackOp.drop.name then do
    let _ ← pop name
    pure ()
  else if name = StackOp.duplicate.name then do
    let x ← peek name
    push x
  else if name = StackOp.swap.name then
    swapTop name
  else if name = StackOp.rotate.name then
    rotateWindow 3 true name
  else if name = StackOp.roll.name then
    roll true name
  else if name = StackOp.rollDown.name then
    roll false name
  else
    raise (.incident (.unhandled name))

/- The handler of the conditional. -/
def choose (name : Text) : Act Unit := do
  let condition ← pop name
  let onFalse ← pop name
  let onTrue ← pop name
  let v ← known condition
  match v with
  | .boolean b => push (if b then onTrue else onFalse)
  | v => raise (.fault (.typing (.needsCondition name v.kind)))

/- The handlers of the families of operators. -/
def handlers
    (unit : ArrayUnit)
    (step : Text → Act Unit) :
    List (Family × (Text → Act Unit)) :=
  [ (.unary, unary unit step), (.binary, binary unit),
    (.stack, rearrange), (.conditional, choose) ]

/-
  Carry out the operator with a name as one of a family.
  With too few things the operator itself is pushed.
-/
def perform
    (unit : ArrayUnit)
    (step : Text → Act Unit)
    (family : Family)
    (name : Text) : Act Unit :=
  match family.arity? name with
  | none => raise (.incident (.missingEntry name))
  | some arity => do
      let held ← size
      if held < arity then
        push (.value (.deferred name))
      else
        match (handlers unit step).lookup family with
        | none => raise (.incident (.missingEntry family.name))
        | some handle => handle name

end Raw

end StackCalc

------------------------------------------------------------
-- Tokens
------------------------------------------------------------

namespace StackCalc

namespace Raw

/- A double for an integer. -/
def toDouble (z : Int) : Except Break Float :=
  match floatOfInt? z with
  | some x => .ok x
  | none => .error (.incident .beyondRange)

/- A row with doubles for its integers. -/
def toDoubles : NumVector → Except Break NumVector
  | .ints zs => (zs.mapM toDouble).map .floats
  | .floats xs => .ok (.floats xs)

/-
  Rows for one matrix. If one of them holds doubles, the
  integers of the others are converted.
-/
def convert
    (vs : List NumVector) :
    Except Break (List NumVector) :=
  if vs.any NumVector.isFloats then vs.mapM toDoubles
  else .ok vs

/- The value of a literal. -/
def materialize
    (unit : ArrayUnit) :
    Literal.Node → Except Break Value
  | .scalar s => .ok s.toValue
  | .vector v => (unit.make (.vector v)).mapError .incident
  | .rows vs =>
      match convert vs with
      | .error b => .error b
      | .ok rows =>
          match NumMatrix.ofRows rows with
          | .ok m =>
              (unit.make (.matrix m)).mapError .incident
          | .error cause => .error (.fault (.dimension cause))

/- The value of a text. -/
def parse
    (unit : ArrayUnit)
    (t : Text) : Except Break Value :=
  if Text.isQuoted t then .ok (.string t)
  else if t = [] then
    .error (.fault (.malformed .emptyLiteral t (some 0)))
  else
    match Literal.readWhole t with
    | .error e => .error (.ofStop (Literal.stopAt t e))
    | .ok node => materialize unit node

/- Push a literal. -/
def literal
    (unit : ArrayUnit)
    (t : Text) : Act Unit := do
  let v ← give (parse unit t)
  push (.value v)

/- Push what stands after an apostrophe. -/
def quote
    (unit : ArrayUnit)
    (t : Text) : Act Unit :=
  if Operator.isName t || t.head? = some '{' then
    push (.value (.deferred t))
  else
    literal unit t

/- Carry out tokens one after another. -/
def tokens
    (step : Text → Act Unit) :
    List Text → Act Unit
  | [] => pure ()
  | t :: ts => do
      step t
      tokens step ts

/- The things that a computation leaves on a new pile. -/
def onNewPile (x : Act Unit) : Act Pile :=
  ⟨fun p =>
    match x.run [] with
    | (.ok _, q) => (.ok q, p)
    | (.error b, _) => (.error b, p)⟩

/- Run a block. -/
def applyBlock
    (unit : ArrayUnit)
    (step : Text → Act Unit)
    (source : Text) : Act Unit := do
  let b ← give ((Block.parse source).mapError .ofStop)
  let args ← popMany b.arity source
  let values ← give (args.mapM (listed unit))
  let line ← give ((b.substitute values).mapError .ofStop)
  let scope ← onNewPile (tokens step (Token.split line))
  pushAll scope.reverse

/- Carry out a token. -/
def dispatch
    (unit : ArrayUnit) :
    Nat → Text → Act Unit
  | 0, _ => raise (.incident .tooDeep)
  | depth + 1, t =>
      match Operator.ofName? t with
      | some op =>
          perform unit (dispatch unit depth) op.family t
      | none =>
          match t with
          | '\'' :: rest => quote unit rest
          | '{' :: _ => applyBlock unit (dispatch unit depth) t
          | _ => literal unit t

/- Being nested too deeply is a fault of the program. -/
def reported
    (r : Except Break Unit × Pile) :
    Except Break Unit × Pile :=
  match r with
  | (.error (.incident i), p) =>
      if i.group = .recursion then
        (.error (.fault .tooDeep), p)
      else (.error (.incident i), p)
  | r => r

/- Run a program, as deep as there is room for. -/
def program
    (unit : ArrayUnit)
    (depth : Nat)
    (lines : List Text) : Act Unit :=
  ⟨fun p =>
    reported
      ((tokens (dispatch unit depth)
        (Run.tokensOf lines)).run p)⟩

end Raw

end StackCalc
