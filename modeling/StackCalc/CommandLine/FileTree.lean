import StackCalc.CommandLine.Path

/-
  This file defines a tree of files and folders with the
  folder a command works in, and reads and writes files in
  it at absolute and relative paths.

  Key definitions include:
    * `StackCalc.FileTree.Node`
    * `StackCalc.FileTree`
    * `StackCalc.FileTree.ofFiles`
    * `StackCalc.FileTree.content?`
    * `StackCalc.FileTree.put`
    * `StackCalc.FileTree.write?`
    * `StackCalc.FileTree.changes`
-/

------------------------------------------------------------
-- Trees
------------------------------------------------------------

namespace StackCalc

/- What names can lead to: a folder, or a file. -/
inductive FileTree.Node where
  | folder
  | file (content : List UInt8)
deriving Repr, DecidableEq

/-
  A tree: what the names from its root lead to, if anything,
  and the names of the folder that relative paths start
  from. Whatever there is stands in folders.
-/
structure FileTree where
  node : List Text → Option FileTree.Node
  here : List Text
  closed :
    ∀ names name, node (names ++ [name]) ≠ none →
      node names = some .folder
  here_folder :
    node here = some .folder

namespace FileTree

/- Whether names lead to a folder. -/
def isFolder
    (d : FileTree)
    (names : List Text) : Bool :=
  d.node names == some .folder

/- The content of the file that names lead to. -/
def file?
    (d : FileTree)
    (names : List Text) : Option (List UInt8) :=
  match d.node names with
  | some (.file content) => some content
  | _ => none

end FileTree

end StackCalc

------------------------------------------------------------
-- Listed Files
------------------------------------------------------------

namespace StackCalc

namespace FileTree

/- Whether there are files behind names. -/
def leadsOn
    (files : List (List Text × List UInt8))
    (names : List Text) : Bool :=
  files.any fun file =>
    names.isPrefixOf file.1 && names.length < file.1.length

/-
  What names lead to if there are certain files, and no
  folders but those that they and the names `here` need.
-/
def nodeOf
    (files : List (List Text × List UInt8))
    (here names : List Text) : Option Node :=
  if names.isPrefixOf here || leadsOn files names then
    some .folder
  else
    (files.lookup names).map .file

theorem leadsOn_iff
    {files : List (List Text × List UInt8)}
    {names : List Text} :
    leadsOn files names = true ↔
      ∃ file ∈ files,
        names <+: file.1 ∧
          names.length < file.1.length := by
  rw [leadsOn, List.any_eq_true]
  simp only [Bool.and_eq_true, List.isPrefixOf_iff_prefix,
    decide_eq_true_eq]

theorem nodeOf_closed
    (files : List (List Text × List UInt8))
    (here names : List Text)
    (name : Text)
    (h : nodeOf files here (names ++ [name]) ≠ none) :
    nodeOf files here names = some .folder := by
  have hBefore : names <+: names ++ [name] :=
    List.prefix_append names [name]
  apply if_pos
  rw [Bool.or_eq_true, List.isPrefixOf_iff_prefix, leadsOn_iff]
  unfold nodeOf at h
  split at h
  · rename_i hFolder
    rw [Bool.or_eq_true, List.isPrefixOf_iff_prefix,
      leadsOn_iff] at hFolder
    rcases hFolder with
      hHere | ⟨file, hMem, hPrefix, hLength⟩
    · exact .inl (hBefore.trans hHere)
    · refine .inr ⟨file, hMem, hBefore.trans hPrefix, ?_⟩
      rw [List.length_append] at hLength
      omega
  · -- A file of these names stands in a folder.
    have hListed : files.lookup (names ++ [name]) ≠ none := by
      simpa using h
    rcases Option.ne_none_iff_exists'.1 hListed with
      ⟨content, hContent⟩
    rcases List.lookup_eq_some_iff.1 hContent with
      ⟨before, after, rfl, -⟩
    exact .inr ⟨(names ++ [name], content), by simp, hBefore,
      by simp⟩

/- The tree with certain files, seen from a folder. -/
def ofFiles
    (files : List (List Text × List UInt8))
    (here : List Text) : FileTree where
  node := nodeOf files here
  here := here
  closed := nodeOf_closed files here
  here_folder := by
    have hSelf : here.isPrefixOf here = true :=
      List.isPrefixOf_iff_prefix.2 (List.prefix_refl here)
    simp [nodeOf, hSelf]

/- Files alone are a tree that is seen from its root. -/
instance :
    Coe (List (List Text × List UInt8)) FileTree where
  coe files := ofFiles files []

end FileTree

end StackCalc

------------------------------------------------------------
-- Reading
------------------------------------------------------------

namespace StackCalc

namespace FileTree

/-
  Where a part of a path leads to from a folder. Two dots
  lead back out of it, and stay where they are at the root.
-/
def onward
    (names : List Text)
    (part : Text) : List Text :=
  if part = "..".toList then names.dropLast
  else names ++ [part]

/- Where parts lead to, each from a folder. -/
def walk
    (isFolder : List Text → Bool)
    (names : List Text) :
    List Text → Option (List Text)
  | [] => some names
  | part :: parts =>
      if isFolder names then
        walk isFolder (onward names part) parts
      else none

/- Where a path starts: at the root if it is absolute. -/
def start
    (d : FileTree)
    (p : Path) : List Text :=
  if p.root.isEmpty then d.here else []

/- The names that a path leads to. -/
def locate?
    (d : FileTree)
    (p : Path) : Option (List Text) :=
  walk d.isFolder (d.start p) p.parts

/- The content of the file at a path. -/
def content?
    (d : FileTree)
    (p : Path) : Option (List UInt8) :=
  (d.locate? p).bind d.file?

end FileTree

end StackCalc

------------------------------------------------------------
-- Writing
------------------------------------------------------------

namespace StackCalc

namespace FileTree

theorem put_closed
    (d : FileTree)
    {place : List Text}
    {x : Node}
    {names : List Text}
    {name : Text}
    (hPlace : place = names ++ [name])
    (hFolder : d.node names = some .folder)
    (hFree : d.node place = some .folder → x = .folder)
    (front : List Text)
    (last : Text)
    (h :
      (if front ++ [last] = place then some x
        else d.node (front ++ [last])) ≠ none) :
    (if front = place then some x else d.node front) =
      some .folder := by
  have hFront : d.node front = some .folder := by
    split at h
    · rename_i hSame
      rw [hPlace] at hSame
      rw [List.append_inj_left' hSame rfl]
      exact hFolder
    · exact d.closed front last h
  split
  · rename_i hSame
    rw [hFree (hSame ▸ hFront)]
  · exact hFront

/-
  A tree with something put into a folder, which takes the
  place of another folder only if it is one.
-/
def put
    (d : FileTree)
    (names : List Text)
    (name : Text)
    (x : Node)
    (hFolder : d.node names = some .folder)
    (hFree :
      d.node (names ++ [name]) = some .folder →
        x = .folder) : FileTree where
  node place :=
    if place = names ++ [name] then some x else d.node place
  here := d.here
  closed := d.put_closed rfl hFolder hFree
  here_folder := by
    have hHere := d.here_folder
    split
    · rename_i hSame
      rw [hFree (hSame ▸ hHere)]
    · exact hHere

/-
  Make the folder that a part of a path leads to, but not in
  place of a file. The way back out of a folder is there.
-/
def makeFolder?
    (d : FileTree)
    (names : List Text)
    (part : Text) : Option FileTree :=
  if part = "..".toList then some d
  else if h : d.node names = some .folder ∧
      d.file? (names ++ [part]) = none then
    some (d.put names part .folder h.1 fun _ => rfl)
  else none

/- Write a file in a folder, but not in place of a folder. -/
def writeFile?
    (d : FileTree)
    (names : List Text)
    (name : Text)
    (content : List UInt8) : Option FileTree :=
  if h : d.node names = some .folder ∧
      d.node (names ++ [name]) ≠ some .folder then
    some (d.put names name (.file content) h.1
      fun hFolder => absurd hFolder h.2)
  else none

/-
  Follow parts of a path from a folder and make the folders
  on the way that are missing.
-/
def makeFolders?
    (d : FileTree)
    (names : List Text) :
    List Text → Option (FileTree × List Text)
  | [] => some (d, names)
  | part :: parts => do
      let d' ← d.makeFolder? names part
      d'.makeFolders? (onward names part) parts

/-
  Write a file at a path, with the folders on its way. The
  names it then has are given beside the tree.
-/
def write?
    (d : FileTree)
    (p : Path)
    (content : List UInt8) :
    Option (FileTree × List Text) := do
  let name ← p.name?
  if name = "..".toList then none
  else do
    let (d', names) ←
      d.makeFolders? (d.start p) p.parts.dropLast
    let after ← d'.writeFile? names name content
    return (after, names ++ [name])

/-
  The files that are new or changed after a file has been
  written at a path.
-/
def changes
    (d : FileTree)
    (p : Path)
    (content : List UInt8) :
    List (List Text × List UInt8) :=
  match d.write? p content with
  | none => []
  | some (_, names) =>
      if d.file? names = some content then []
      else [(names, content)]

end FileTree

end StackCalc
