import StackCalc.CommandLine.Arguments
import StackCalc.CommandLine.FileTree
import StackCalc.Fault.Message
import StackCalc.Run.Trace
import StackCalc.Text.Blank

/-
  This file defines the command that runs the program in a
  file and writes the values it leaves, one on a line.

  Key definitions include:
    * `StackCalc.CommandLine.readProgram?`
    * `StackCalc.CommandLine.Ending`
    * `StackCalc.CommandLine.Report`
    * `StackCalc.CommandLine.execute`
    * `StackCalc.CommandLine.run`
-/

------------------------------------------------------------
-- Programs
------------------------------------------------------------

namespace StackCalc

namespace CommandLine

/- The text that bytes encode in UTF-8. -/
def decode? (bytes : List UInt8) : Option Text :=
  (String.fromUTF8? ⟨bytes.toArray⟩).map String.toList

/- The bytes that encode a text in UTF-8. -/
def encode (t : Text) : List UInt8 :=
  (String.ofList t).toUTF8.data.toList

/- The lines of a program, without blanks at their ends. -/
def programLines (t : Text) : List Text :=
  (Text.lines t).map Text.strip

/- The lines of the program that is in a file. -/
def readProgram? (bytes : List UInt8) : Option (List Text) :=
  (decode? bytes).map programLines

end CommandLine

end StackCalc

------------------------------------------------------------
-- Reports
------------------------------------------------------------

namespace StackCalc

namespace CommandLine

/- Why the command broke off without an exit code. -/
inductive Breakdown where
  | undecodable
  | tooManyDigits
  | outOfDepth
  | namelessPath
deriving Repr, DecidableEq

/-
  How the command ended: with an exit code, by explaining
  its use with one, or not in order.
-/
inductive Ending where
  | exit (code : Nat)
  | usage (code : Nat)
  | broken (why : Breakdown)
deriving Repr, DecidableEq

/-
  What the command does: how it ends, the lines it prints
  and logs, and the file it writes, which is supposed to be
  one that can be written.
-/
structure Report where
  ending : Ending
  printed : List Text
  log : List Text
  written : Option (Path × Text)
deriving Repr, DecidableEq

/- A command that wrote and printed nothing. -/
def Report.silent
    (ending : Ending)
    (log : List Text) : Report :=
  ⟨ending, [], log, none⟩

end CommandLine

end StackCalc

------------------------------------------------------------
-- Log Lines
------------------------------------------------------------

namespace StackCalc

namespace CommandLine

open Decimal (natText)

/- Log lines that only a verbose command writes. -/
def verbosely
    (o : Options)
    (lines : List Text) : List Text :=
  if o.verbose then lines else []

/- The log line about a program that is not there. -/
def missingLine (p : Path) : Text :=
  "ERROR stacko.cli: input file ".toList ++ p.text ++
    " does not exist".toList

/- The log line about a program that is run. -/
def runningLine
    (p : Path)
    (lines : List Text) : Text :=
  "DEBUG stacko.cli: running ".toList ++
    natText lines.length ++ " line(s) from ".toList ++ p.text

/- The log line about an event. -/
def eventLine (e : Event) : Text :=
  "DEBUG stacko.evaluator: ".toList ++ e.message

/- The log line about values that were written. -/
def wroteLine
    (p : Path)
    (lines : List Text) : Text :=
  "DEBUG stacko.cli: wrote ".toList ++
    natText lines.length ++ " value(s) to ".toList ++ p.text

/- The log line about a fault. -/
def faultLine
    (p : Path)
    (f : Fault) : Text :=
  let text := f.text?.getD
    (f.kind.describe "no representable result".toList
      f.token f.pos)
  "ERROR stacko.cli: ".toList ++ p.text ++ ": ".toList ++
    f.kind.name ++ ": ".toList ++ text

end CommandLine

end StackCalc

------------------------------------------------------------
-- Execution
------------------------------------------------------------

namespace StackCalc

namespace CommandLine

/- The texts of the values of a stack, from the bottom. -/
def renderStack? (s : Stack) : Option (List Text) :=
  s.reverse.mapM Value.render

/- Lines, each with its end. -/
def unlines (lines : List Text) : Text :=
  lines.flatMap fun line => line ++ ['\n']

/- Where the command writes. -/
def outputPath? (o : Options) : Option Path :=
  match o.output with
  | some (c :: t) => some (Path.ofText (c :: t))
  | _ => Path.defaultOutput? (Path.ofText o.input)

/- Run the lines of a program and report on it. -/
def executeLines
    (o : Options)
    (output : Path)
    (lines : List Text)
    (depth : Nat := Run.maxDepth) : Report :=
  let input := Path.ofText o.input
  let log := verbosely o
    (runningLine input lines ::
      (Trace.program lines [] depth).map eventLine)
  match Run.program lines [] depth with
  | .error ⟨.fault f, _⟩ =>
      .silent (.exit 1) (log ++ [faultLine input f])
  | .error ⟨.tooManyDigits, _⟩ =>
      .silent (.broken .tooManyDigits) log
  | .error ⟨.outOfDepth, _⟩ =>
      .silent (.broken .outOfDepth) log
  | .ok s =>
      match renderStack? s with
      | none => .silent (.broken .tooManyDigits) log
      | some values =>
          { ending := .exit 0
            printed := if o.echo then values else []
            log :=
              log ++ verbosely o [wroteLine output values]
            written := some (output, unlines values) }

/- Run the program whose file has some content, if any. -/
def execute
    (o : Options)
    (content : Option (List UInt8))
    (depth : Nat := Run.maxDepth) : Report :=
  match content with
  | none =>
      .silent (.exit 2) [missingLine (Path.ofText o.input)]
  | some bytes =>
      match outputPath? o, readProgram? bytes with
      | none, _ => .silent (.broken .namelessPath) []
      | _, none => .silent (.broken .undecodable) []
      | some output, some lines =>
          executeLines o output lines depth

/- Run the command on the files of a tree. -/
def run
    (d : FileTree)
    (arguments : List Text)
    (depth : Nat := Run.maxDepth) : Report :=
  match Arguments.parse arguments with
  | .help => .silent (.usage 0) []
  | .misuse => .silent (.usage 2) []
  | .run o =>
      execute o (d.content? (Path.ofText o.input)) depth

/-
  The tree after a command. It stays as it is if the file
  cannot be written.
-/
def treeAfter
    (d : FileTree)
    (r : Report) : FileTree :=
  match r.written with
  | none => d
  | some (p, t) =>
      match d.write? p (encode t) with
      | none => d
      | some (after, _) => after

/- The files that are new or changed after a command. -/
def changes
    (d : FileTree)
    (r : Report) : List (List Text × List UInt8) :=
  match r.written with
  | none => []
  | some (p, t) => d.changes p (encode t)

end CommandLine

end StackCalc
