import StackCalc.CommandLine.Basic

/-
  This file is the command itself: it reads the file that
  `StackCalc.CommandLine.execute` asks for and does what
  the report says.

  Key definitions include:
    * `main`
-/

------------------------------------------------------------
-- Input And Output
------------------------------------------------------------

namespace StackCalc

namespace CommandLine

/- A text for printing. -/
def printable (t : Text) : String :=
  String.ofList t

/- How the command is used. -/
def usageLine : String :=
  "usage: stacko [-h] [--output OUTPUT] [--print] [-v] input"

/- The content of the file at a path, if there is one. -/
def contentOf (p : Path) : IO (Option (List UInt8)) := do
  try
    let bytes ← IO.FS.readBinFile (printable p.text)
    return some bytes.data.toList
  catch _ =>
    return none

/- Write a text to the file at a path. -/
def writeTo
    (p : Path)
    (t : Text) : IO Unit := do
  let parent : Path := ⟨p.root, p.parts.dropLast⟩
  IO.FS.createDirAll (printable parent.text)
  IO.FS.writeFile (printable p.text) (printable t)

/- What is said of a command that broke off. -/
def breakdownLine : Breakdown → String
  | .undecodable => "the program is not encoded in UTF-8"
  | .tooManyDigits => "an integer has too many digits"
  | .outOfDepth => "the program is nested too deeply"
  | .namelessPath => "the path of the program has no name"

/- Do what a report says and give the exit code. -/
def deliver (r : Report) : IO UInt32 := do
  for line in r.log do
    IO.eprintln (printable line)
  match r.written with
  | none => pure ()
  | some (p, t) => writeTo p t
  for line in r.printed do
    IO.println (printable line)
  match r.ending with
  | .exit code => return code.toUInt32
  | .usage code =>
      if code = 0 then IO.println usageLine
      else IO.eprintln usageLine
      return code.toUInt32
  | .broken why =>
      IO.eprintln (breakdownLine why)
      return 1

/- Do what the arguments ask for. -/
def respond (arguments : List Text) : IO UInt32 := do
  match Arguments.parse arguments with
  | .help => deliver (.silent (.usage 0) [])
  | .misuse => deliver (.silent (.usage 2) [])
  | .run o => do
      let content ← contentOf (.ofText o.input)
      deliver (execute o content)

end CommandLine

end StackCalc

------------------------------------------------------------
-- The Command
------------------------------------------------------------

/- Run the program that the arguments name. -/
def main (arguments : List String) : IO UInt32 :=
  StackCalc.CommandLine.respond
    (arguments.map String.toList)
