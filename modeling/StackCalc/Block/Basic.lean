import StackCalc.Fault.Basic
import StackCalc.Literal.Numeral
import StackCalc.Text.Blank
import StackCalc.Value.Render

/-
  This file defines blocks, texts like `{2|x0 x1 -}`: the
  number of values that a block takes and, after a bar, the
  line that it runs. In the line `x0`, `x1` and so on stand
  for the values, and `SELF` for the block.

  Key definitions include:
    * `StackCalc.Block`
    * `StackCalc.Block.parse`
    * `StackCalc.Block.fill`
    * `StackCalc.Block.insertSelf`
    * `StackCalc.Block.substitute`
-/

------------------------------------------------------------
-- Blocks
------------------------------------------------------------

namespace StackCalc

/- A block: its source, how much it takes, and its line. -/
structure Block where
  source : Text
  arity : Nat
  body : Text
deriving Repr, DecidableEq

namespace Block

/- The complaint about the source of a block. -/
def malformed
    (cause : Malformation)
    (source : Text) : Stop :=
  .fault (.malformed cause source none)

/- Whether a text is a run of digits. -/
def isCount (t : Text) : Bool :=
  !t.isEmpty && t.all Char.isDigit

/- Read a block. -/
def parse (source : Text) : Except Stop Block :=
  if Text.isWrapped '{' '}' source then
    let inner := Text.unwrap source
    match inner.dropWhile (· ≠ '|') with
    | [] => .error (malformed .undividedBlock source)
    | _ :: body =>
        let count := Text.strip (inner.takeWhile (· ≠ '|'))
        if isCount count then
          match Decimal.natValue? count with
          | none => .error .tooManyDigits
          | some arity => .ok ⟨source, arity, Text.strip body⟩
        else
          .error (malformed (.badCount count) source)
  else
    .error (malformed .unbracedBlock source)

end Block

end StackCalc

------------------------------------------------------------
-- Substitution
------------------------------------------------------------

namespace StackCalc

namespace Block

/- The text of the value that a placeholder stands for. -/
def placeholder
    (source : Text)
    (args : List Value)
    (digits : Text) : Except Stop Text :=
  match Decimal.natValue? digits with
  | none => .error .tooManyDigits
  | some i =>
      match args[i]? with
      | none =>
          .error (malformed
            (.strayPlaceholder i args.length) source)
      | some v =>
          match v.render with
          | none => .error .tooManyDigits
          | some t => .ok t

/-
  Put the texts of values for the placeholders in a text,
  from left to right. The digits after an `x` count as far
  as they go.
-/
def fill
    (source : Text)
    (args : List Value) :
    Text → Except Stop Text
  | [] => .ok []
  | c :: rest =>
      if c = 'x' ∧ Numeral.startsWithDigit rest then
        match placeholder source args
            (rest.takeWhile Char.isDigit) with
        | .error e => .error e
        | .ok t =>
            match fill source args
                (rest.dropWhile Char.isDigit) with
            | .error e => .error e
            | .ok more => .ok (t ++ more)
      else
        match fill source args rest with
        | .error e => .error e
        | .ok more => .ok (c :: more)
termination_by t => t.length
decreasing_by
  · have hDrop :=
      (List.dropWhile_suffix Char.isDigit
        (l := rest)).length_le
    simp only [List.length_cons]
    omega
  · simp only [List.length_cons]
    omega

/- Put a text for every `SELF` in another. -/
def insertSelf
    (self : Text) : Text → Text
  | [] => []
  | 'S' :: 'E' :: 'L' :: 'F' :: rest =>
      self ++ insertSelf self rest
  | c :: rest => c :: insertSelf self rest

/-
  The line that a block runs on some values. The block
  itself is put in last, after an apostrophe, so that it
  is pushed.
-/
def substitute
    (b : Block)
    (args : List Value) : Except Stop Text := do
  let filled ← fill b.source args b.body
  return insertSelf ('\'' :: b.source) filled

end Block

end StackCalc
