import StackCalc.Text.Basic

/-
  This file defines paths of files and the path at which a
  program's result is written if no other is given.

  Key definitions include:
    * `StackCalc.Path`
    * `StackCalc.Path.ofText`
    * `StackCalc.Path.text`
    * `StackCalc.Path.stem`
    * `StackCalc.Path.number?`
    * `StackCalc.Path.defaultOutput?`
-/

------------------------------------------------------------
-- Paths
------------------------------------------------------------

namespace StackCalc

/-
  A path: slashes at its start, none for a relative path,
  and the names from there on.
-/
structure Path where
  root : Text
  parts : List Text
deriving Repr, DecidableEq

namespace Path

/- The segments of a text between slashes. -/
def segments : Text → Text × List Text
  | [] => ([], [])
  | c :: rest =>
      let (s, ss) := segments rest
      if c = '/' then ([], s :: ss) else (c :: s, ss)

/-
  The slashes a path starts with: two are kept as two, and
  more count as one.
-/
def rootOf : Text → Text
  | '/' :: '/' :: '/' :: _ => "/".toList
  | '/' :: '/' :: _ => "//".toList
  | '/' :: _ => "/".toList
  | _ => []

/-
  Read a path. Empty segments and single dots mean nothing
  and are left out.
-/
def ofText (t : Text) : Path :=
  let (s, ss) := segments t
  ⟨rootOf t, (s :: ss).filter fun p =>
    !p.isEmpty && p ≠ ['.']⟩

/- The text of a path. -/
def text (p : Path) : Text :=
  if p.root.isEmpty && p.parts.isEmpty then ['.']
  else p.root ++ Text.joinWith ['/'] p.parts

/- The last name of a path. -/
def name? (p : Path) : Option Text :=
  p.parts.getLast?

/- The path with another last name. -/
def withName
    (p : Path)
    (name : Text) : Path :=
  ⟨p.root, p.parts.dropLast ++ [name]⟩

end Path

end StackCalc

------------------------------------------------------------
-- Default Output
------------------------------------------------------------

namespace StackCalc

namespace Path

/-
  A name up to its last dot. A dot at either end of the
  name does not count.
-/
def stem (name : Text) : Text :=
  let ending := name.reverse.takeWhile (· ≠ '.')
  match name.reverse.dropWhile (· ≠ '.') with
  | [] => name
  | _ :: front =>
      if ending.isEmpty || front.isEmpty then name
      else front.reverse

/- The three digits before `.txt` that a text starts with. -/
def leadingNumber? (t : Text) : Option Text :=
  let ds := t.take 3
  if ds.length = 3 ∧ ds.all Char.isDigit ∧
      ".txt".toList.isPrefixOf (t.drop 3) then
    some ds
  else
    none

/- The first three digits before `.txt` in a text. -/
def number? : Text → Option Text
  | [] => none
  | c :: rest =>
      match leadingNumber? (c :: rest) with
      | some ds => some ds
      | none => number? rest

/-
  Where the result of a program goes: for a numbered
  program to the output of that number, and otherwise
  beside the program. A path without a name has none.
-/
def defaultOutput? (p : Path) : Option Path :=
  match p.name? with
  | none => none
  | some name =>
      match number? name with
      | some ds =>
          some ⟨[],
            ["output-".toList ++ ds ++ ".txt".toList]⟩
      | none =>
          some (p.withName (stem name ++ ".out.txt".toList))

end Path

end StackCalc
