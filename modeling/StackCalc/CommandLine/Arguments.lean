import StackCalc.Text.Basic
import StackCalc.Text.Digit

/-
  This file reads the arguments of the command: the path of
  a program and the options. Long options may be cut short
  as long as it is clear which is meant, short options may
  be written together, and after two dashes nothing is an
  option.

  Key definitions include:
    * `StackCalc.Options`
    * `StackCalc.Invocation`
    * `StackCalc.Arguments.classify`
    * `StackCalc.Arguments.consume`
    * `StackCalc.Arguments.parse`
-/

------------------------------------------------------------
-- Invocations
------------------------------------------------------------

namespace StackCalc

/- What to run, where to write, and what to show. -/
structure Options where
  input : Text
  output : Option Text
  echo : Bool
  verbose : Bool
deriving Repr, DecidableEq

/- What arguments ask for; they may also make no sense. -/
inductive Invocation where
  | run (o : Options)
  | help
  | misuse
deriving Repr, DecidableEq

/- The options there are. -/
inductive Switch where
  | help
  | output
  | echo
  | verbose
deriving Repr, DecidableEq

namespace Switch

/- All options with their long names. -/
def longNames : List (Text × Switch) :=
  [ ("--help".toList, help),
    ("--output".toList, output),
    ("--print".toList, echo),
    ("--verbose".toList, verbose) ]

/- The options that have a short name. -/
def ofLetter? (c : Char) : Option Switch :=
  if c = 'h' then some help
  else if c = 'v' then some verbose
  else none

/- The options whose long name starts with a text. -/
def startingWith (t : Text) : List Switch :=
  (longNames.filter fun p => t.isPrefixOf p.1).map Prod.snd

end Switch

end StackCalc

------------------------------------------------------------
-- Classification
------------------------------------------------------------

namespace StackCalc

/-
  One argument: plain, two dashes, an option with the text
  after an equals sign, short options written together, an
  option that does not exist, or one that could be several.
-/
inductive Argument where
  | plain (t : Text)
  | dashes
  | long (s : Switch) (given : Option Text)
  | short (letters : Text)
  | unknown
  | ambiguous
deriving Repr, DecidableEq

namespace Arguments

/- A text without the line feed at its end, if it has one. -/
def dropLineFeed (t : Text) : Text :=
  if t.getLast? = some '\n' then t.dropLast else t

/-
  Whether a text is a negative number, and no option. The
  digits may be those of any script.
-/
def isNegativeNumber (t : Text) : Bool :=
  match dropLineFeed t with
  | '-' :: t =>
      let fraction := t.dropWhile Text.isDecimalDigit
      if fraction.isEmpty then !t.isEmpty
      else
        fraction.head? = some '.' && fraction.length ≠ 1 &&
          fraction.tail.all Text.isDecimalDigit
  | _ => false

/- An argument that may be no option after all. -/
def otherwise (t : Text) : Argument :=
  if isNegativeNumber t || t.contains ' ' then .plain t
  else .unknown

/- Read an argument that starts with two dashes. -/
def classifyLong (t : Text) : Argument :=
  let name := t.takeWhile (· ≠ '=')
  let given :=
    match t.dropWhile (· ≠ '=') with
    | [] => none
    | _ :: value => some value
  match Switch.longNames.lookup t,
      Switch.longNames.lookup name with
  | some s, _ => .long s none
  | none, some s => .long s given
  | none, none =>
      match Switch.startingWith name with
      | [] => otherwise t
      | [s] => .long s given
      | _ => .ambiguous

/- Read an argument that starts with one dash. -/
def classifyShort (t letters : Text) : Argument :=
  match letters with
  | c :: _ =>
      match Switch.ofLetter? c with
      | some _ => .short letters
      | none => otherwise t
  | [] => .plain t

/- Read one argument. -/
def classify (t : Text) : Argument :=
  match t with
  | '-' :: '-' :: _ => classifyLong t
  | '-' :: letters => classifyShort t letters
  | _ => .plain t

/- Read arguments; after two dashes all are plain. -/
def classifyAll : List Text → List Argument
  | [] => []
  | t :: ts =>
      if t = "--".toList then .dashes :: ts.map .plain
      else classify t :: classifyAll ts

end Arguments

end StackCalc

------------------------------------------------------------
-- Consumption
------------------------------------------------------------

namespace StackCalc

namespace Arguments

/-
  What has been read so far: the path of the program, the
  options, and whether something was left over.
-/
structure State where
  input : Option Text
  output : Option Text
  echo : Bool
  verbose : Bool
  surplus : Bool

/- Nothing has been read yet. -/
def State.start : State :=
  ⟨none, none, false, false, false⟩

/- What was read asks for a run if it is complete. -/
def State.finish (s : State) : Invocation :=
  match s.input with
  | some input =>
      if s.surplus then .misuse
      else .run ⟨input, s.output, s.echo, s.verbose⟩
  | none => .misuse

/-
  Short options written together, and whether letters that
  are no options follow them. Neither an equals sign nor a
  dash may follow an option.
-/
def together : Text → Option (List Switch × Bool)
  | [] => some ([], false)
  | c :: rest =>
      match Switch.ofLetter? c with
      | none => some ([], true)
      | some s =>
          if rest.head? = some '=' || rest.head? = some '-'
          then none
          else
            (together rest).map fun p => (s :: p.1, p.2)

/-
  Go through arguments from left to right. Two dashes must
  stand right before or right after the program. Help ends
  the reading, and so does an option in a wrong form.
-/
def consume
    (s : State) :
    List Argument → Invocation
  | [] => s.finish
  | .plain t :: rest =>
      if s.input.isSome then
        consume { s with surplus := true } rest
      else
        match rest with
        | .dashes :: rest =>
            consume { s with input := some t } rest
        | rest => consume { s with input := some t } rest
  | .dashes :: rest =>
      if s.input.isSome || rest.isEmpty then
        consume { s with surplus := true } rest
      else
        consume s rest
  | .long .help none :: _ => .help
  | .long .echo none :: rest =>
      consume { s with echo := true } rest
  | .long .verbose none :: rest =>
      consume { s with verbose := true } rest
  | .long .output (some t) :: rest =>
      consume { s with output := some t } rest
  | .long .output none :: .plain t :: rest =>
      consume { s with output := some t } rest
  | .long _ _ :: _ => .misuse
  | .short letters :: rest =>
      match together letters with
      | none => .misuse
      | some (switches, surplus) =>
          if switches.contains .help then .help
          else
            consume
              { s with
                verbose := true
                surplus := s.surplus || surplus }
              rest
  | .unknown :: rest =>
      consume { s with surplus := true } rest
  | .ambiguous :: _ => .misuse

/-
  What arguments ask for. An option that could be several
  makes no sense wherever it stands.
-/
def parse (ts : List Text) : Invocation :=
  let arguments := classifyAll ts
  if arguments.contains .ambiguous then .misuse
  else consume State.start arguments

end Arguments

end StackCalc
