import StackCalc.Literal.Scalar
import StackCalc.Numbers.Collect

/-
  This file reads literals. An array of numbers is a
  vector; an array of such arrays is a matrix, whose rows
  they are. Arrays nest no deeper.

  Key definitions include:
    * `StackCalc.Literal.pack`
    * `StackCalc.Literal.readRow`
    * `StackCalc.Literal.readNode`
    * `StackCalc.Literal.parse`
-/

------------------------------------------------------------
-- Rows
------------------------------------------------------------

namespace StackCalc

namespace Literal

/- The numbers among scalars that are all numbers. -/
def numbers? (ss : List Scalar) : Option (List Number) :=
  ss.mapM fun s =>
    match s with
    | .number n => some n
    | _ => none

/- Pack scalars into a vector. -/
def pack
    (ss : List Scalar) :
    Except Malformation NumVector :=
  match numbers? ss with
  | none => .error .nonNumber
  | some ns =>
      match NumVector.ofNumbers ns with
      | .ok v => .ok v
      | .error .beyondFloat => .error .beyondFloat
      | .error (.beyondStorage z) =>
          .error (.beyondStorage z)

/- Read a scalar in a row, where no array may stand. -/
def readRowItem (t : Text) : Reading Scalar :=
  match t with
  | '[' :: _ => .error (.malformed .deepArray t)
  | _ => Scalar.read t

/- The reader of scalars in a row. -/
def rowItem : Reader Scalar where
  read := readRowItem
  shorter := by
    intro t s r h
    unfold readRowItem at h
    split at h
    · simp at h
    · exact Scalar.length_lt_of_read h

/- Read a row, whose opening bracket `whole` starts with. -/
def readRow
    (whole t : Text) : Reading NumVector :=
  match rowItem.array t with
  | .error e => .error e
  | .ok (ss, r) =>
      match pack ss with
      | .ok v => .ok (v, r)
      | .error cause => .error (.malformed cause whole)

/- Reading a row takes at least one character. -/
theorem length_lt_of_readRow
    {whole t r : Text}
    {v : NumVector}
    (h : readRow whole t = .ok (v, r)) :
    r.length < t.length := by
  unfold readRow at h
  split at h
  case h_1 =>
    simp at h
  case h_2 ss r' hArray =>
    split at h
    · simp only [Except.ok.injEq, Prod.mk.injEq] at h
      obtain ⟨_, rfl⟩ := h
      exact Reader.length_lt_of_array hArray
    · simp at h

end Literal

end StackCalc

------------------------------------------------------------
-- Arrays
------------------------------------------------------------

namespace StackCalc

namespace Literal

/- What may stand in an array: a scalar or a row. -/
inductive Item where
  | scalar (s : Scalar)
  | row (v : NumVector)

/- Read a scalar or a row. -/
def readItem (t : Text) : Reading Item :=
  match t with
  | '[' :: rest =>
      match readRow t rest with
      | .error e => .error e
      | .ok (v, r) => .ok (.row v, r)
  | _ =>
      match Scalar.read t with
      | .error e => .error e
      | .ok (s, r) => .ok (.scalar s, r)

/- The reader of scalars and rows. -/
def item : Reader Item where
  read := readItem
  shorter := by
    intro t i r h
    unfold readItem at h
    split at h
    case h_1 rest =>
      split at h
      · simp at h
      · rename_i v r' hRow
        simp only [Except.ok.injEq, Prod.mk.injEq] at h
        obtain ⟨_, rfl⟩ := h
        have hLt := length_lt_of_readRow hRow
        simp only [List.length_cons]
        omega
    case h_2 =>
      split at h
      · simp at h
      · rename_i s r' hScalar
        simp only [Except.ok.injEq, Prod.mk.injEq] at h
        obtain ⟨_, rfl⟩ := h
        exact Scalar.length_lt_of_read hScalar

/- The rows among some items. -/
def rowsOf (is : List Item) : List NumVector :=
  is.filterMap fun i =>
    match i with
    | .row v => some v
    | .scalar _ => none

/- The scalars among some items. -/
def scalarsOf (is : List Item) : List Scalar :=
  is.filterMap fun i =>
    match i with
    | .row _ => none
    | .scalar s => some s

variable {α : Type}

theorem rowsOf_map_row
    (f : α → NumVector)
    (as : List α) :
    rowsOf (as.map fun a => .row (f a)) = as.map f := by
  induction as with
  | nil =>
      rfl
  | cons a as ih =>
      exact congrArg (f a :: ·) ih

theorem scalarsOf_map_scalar
    (f : α → Scalar)
    (as : List α) :
    scalarsOf (as.map fun a => .scalar (f a)) =
      as.map f := by
  induction as with
  | nil =>
      rfl
  | cons a as ih =>
      exact congrArg (f a :: ·) ih

theorem rowsOf_map_scalar
    (f : α → Scalar)
    (as : List α) :
    rowsOf (as.map fun a => .scalar (f a)) = [] := by
  simp [rowsOf]

theorem scalarsOf_map_row
    (f : α → NumVector)
    (as : List α) :
    scalarsOf (as.map fun a => .row (f a)) = [] := by
  simp [scalarsOf]

end Literal

end StackCalc

------------------------------------------------------------
-- Literals
------------------------------------------------------------

namespace StackCalc

namespace Literal

/- What a literal denotes, the rows not yet compared. -/
inductive Node where
  | scalar (s : Scalar)
  | vector (v : NumVector)
  | rows (vs : List NumVector)

/- Pack items into a vector or into rows. -/
def packItems
    (is : List Item) :
    Except Malformation Node :=
  match rowsOf is, scalarsOf is with
  | [], ss =>
      match pack ss with
      | .ok v => .ok (.vector v)
      | .error cause => .error cause
  | rows, [] => .ok (.rows rows)
  | _, _ => .error .mixedRows

/- Read a literal. -/
def readNode (t : Text) : Reading Node :=
  match t with
  | '[' :: rest =>
      match item.array rest with
      | .error e => .error e
      | .ok (is, r) =>
          match packItems is with
          | .ok node => .ok (node, r)
          | .error cause => .error (.malformed cause t)
  | _ =>
      match Scalar.read t with
      | .error e => .error e
      | .ok (s, r) => .ok (.scalar s, r)

/- The value of a literal, if its rows go together. -/
def Node.toValue : Node → Except Fault Value
  | scalar s => .ok s.toValue
  | vector v => .ok (.vector v)
  | rows vs =>
      match NumMatrix.ofRows vs with
      | .ok m => .ok (.matrix m)
      | .error cause => .error (.dimension cause)

/-
  Read a literal that takes up the whole text, blanks at
  its ends aside.
-/
def readWhole (t : Text) : Except ReadError Node :=
  match readNode (Text.dropBlanks t) with
  | .error e => .error e
  | .ok (node, r) =>
      match Text.dropBlanks r with
      | [] => .ok node
      | rest => .error (.malformed .trailingText rest)

/- A complaint about a text, with its position. -/
def stopAt
    (t : Text) : ReadError → Stop
  | .malformed cause rest =>
      .fault (.malformed cause t
        (some (t.length - rest.length)))
  | .tooManyDigits => .tooManyDigits

/-
  The value of a literal. A text between quotes is taken
  as it is, whatever stands between them.
-/
def parse (t : Text) : Except Stop Value :=
  if Text.isQuoted t then .ok (.string t)
  else if t = [] then
    .error (.fault (.malformed .emptyLiteral t (some 0)))
  else
    match readWhole t with
    | .error e => .error (stopAt t e)
    | .ok node =>
        match node.toValue with
        | .ok v => .ok v
        | .error f => .error (.fault f)

end Literal

end StackCalc
