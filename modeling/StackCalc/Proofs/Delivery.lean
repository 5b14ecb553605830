import StackCalc.CommandLine.Basic
import StackCalc.Proofs.InnerRuns
import StackCalc.Proofs.LiteralGrammar
import StackCalc.Proofs.Spelling

/-
  A command writes its whole result or nothing.

  Much can go wrong on the way from a file to the values
  that its program leaves: there may be no such file, its
  bytes may be no text, the program may fail, and a value
  may be too long to be written. All of it happens before
  anything is written, so that a command either delivers
  the texts of all values to one file, or leaves all files
  as they were. This is so whatever was found at the path of
  the program, and in a tree of files wherever the paths
  lead to.

  Main declarations:
    * `FileTree.name?_ne_none_of_content?`
    * `FileTree.HoldsAt`
    * `FileTree.holdsAt_of_write?`
    * `CommandLine.Leaves`
    * `CommandLine.execute_cases`
    * `CommandLine.lookup_changes_iff`
    * `CommandLine.Report.Delivers`
    * `CommandLine.Report.Withholds`
    * `CommandLine.execute_delivers_or_withholds`
    * `CommandLine.run_delivers_or_withholds`
-/

------------------------------------------------------------
-- Files
------------------------------------------------------------

namespace StackCalc

namespace FileTree

/- Whatever has something behind it is a folder. -/
theorem node_of_append_ne_none
    (d : FileTree)
    {front back : List Text}
    (hBack : back ≠ [])
    (h : d.node (front ++ back) ≠ none) :
    d.node front = some .folder := by
  induction back generalizing front with
  | nil =>
      exact absurd rfl hBack
  | cons name back ih =>
      rw [List.append_cons] at h
      apply d.closed front name
      by_cases hMore : back = []
      · rwa [hMore, List.append_nil] at h
      · rw [ih hMore h]
        simp

/- The root is a folder. -/
theorem node_nil
    (d : FileTree) :
    d.node [] = some .folder := by
  have hHere := d.here_folder
  by_cases hRoot : d.here = []
  · rwa [hRoot] at hHere
  · apply d.node_of_append_ne_none hRoot
    rw [List.nil_append, hHere]
    simp

/- Paths start at a folder, whether absolute or not. -/
theorem node_start
    (d : FileTree)
    (p : Path) :
    d.node (d.start p) = some .folder := by
  unfold start
  split
  · exact d.here_folder
  · exact d.node_nil

/- A path that leads to a file has a last name. -/
theorem name?_ne_none_of_content?
    {d : FileTree}
    {p : Path}
    {bytes : List UInt8}
    (h : d.content? p = some bytes) :
    p.name? ≠ none := by
  intro hName
  have hParts : p.parts = [] := by
    simpa [Path.name?] using hName
  simp [content?, locate?, hParts, walk, file?,
    d.node_start p] at h

end FileTree

end StackCalc

------------------------------------------------------------
-- Written Files
------------------------------------------------------------

namespace StackCalc

namespace FileTree

/- The way back out of a folder leads to a folder. -/
theorem node_dropLast
    {d : FileTree}
    {names : List Text}
    (h : d.node names = some .folder) :
    d.node names.dropLast = some .folder := by
  rcases List.eq_nil_or_concat names with
    rfl | ⟨front, last, rfl⟩
  · exact h
  · rw [List.concat_eq_append] at h ⊢
    rw [List.dropLast_concat]
    apply d.closed front last
    rw [h]
    simp

/-
  A tree with the files of another and at least the same
  folders.
-/
structure Widens (d d' : FileTree) : Prop where
  here : d'.here = d.here
  folders :
    ∀ names, d.node names = some .folder →
      d'.node names = some .folder
  files :
    ∀ names, d'.file? names = d.file? names

theorem Widens.refl
    (d : FileTree) :
    d.Widens d :=
  ⟨rfl, fun _ h => h, fun _ => rfl⟩

theorem Widens.trans
    {d d' d'' : FileTree}
    (h : d.Widens d')
    (h' : d'.Widens d'') :
    d.Widens d'' where
  here := h'.here.trans h.here
  folders names hFolder :=
    h'.folders names (h.folders names hFolder)
  files names := (h'.files names).trans (h.files names)

/- A folder that is made adds to a tree. -/
theorem widens_of_makeFolder?
    {d d' : FileTree}
    {names : List Text}
    {part : Text}
    (hFolder : d.node names = some .folder)
    (h : d.makeFolder? names part = some d') :
    d.Widens d' ∧
      d'.node (onward names part) = some .folder := by
  unfold makeFolder? at h
  unfold onward
  split at h
  case isTrue hDots =>
    rw [if_pos hDots, ← Option.some.inj h]
    exact ⟨.refl d, node_dropLast hFolder⟩
  case isFalse hName =>
    rw [if_neg hName]
    split at h
    case isFalse =>
      simp at h
    case isTrue hRoom =>
      rw [← Option.some.inj h]
      refine ⟨⟨rfl, ?_, ?_⟩, if_pos rfl⟩
      · intro place hPlace
        by_cases hSame : place = names ++ [part]
        · simp [put, hSame]
        · simp [put, hSame, hPlace]
      · intro place
        by_cases hSame : place = names ++ [part]
        · rw [hSame, hRoom.2]
          simp [put, file?]
        · simp [put, file?, hSame]

theorem isFolder_iff
    {d : FileTree}
    {names : List Text} :
    d.isFolder names = true ↔
      d.node names = some .folder := by
  simp [isFolder]

/-
  The folders on a way add to a tree, in which the way then
  leads along folders.
-/
theorem walk_of_makeFolders?
    {d d' : FileTree}
    {names place parts : List Text}
    (hStart : d.node names = some .folder)
    (h : d.makeFolders? names parts = some (d', place)) :
    d.Widens d' ∧ walk d'.isFolder names parts = some place := by
  induction parts generalizing d names with
  | nil =>
      simp only [makeFolders?, Option.some.injEq,
        Prod.mk.injEq] at h
      rcases h with ⟨rfl, rfl⟩
      exact ⟨.refl d, rfl⟩
  | cons part parts ih =>
      rcases Option.bind_eq_some_iff.1 h with
        ⟨wider, hMade, hRest⟩
      rcases widens_of_makeFolder? hStart hMade with
        ⟨hFirst, hInside⟩
      rcases ih hInside hRest with ⟨hWidens, hWalk⟩
      have hBoth := hFirst.trans hWidens
      refine ⟨hBoth, ?_⟩
      rw [walk,
        if_pos (isFolder_iff.2 (hBoth.folders names hStart))]
      exact hWalk

/- A way along more folders leads to the same names. -/
theorem walk_mono
    {isFolder isFolder' : List Text → Bool}
    (hMore :
      ∀ names, isFolder names = true →
        isFolder' names = true)
    {names place parts : List Text}
    (h : walk isFolder names parts = some place) :
    walk isFolder' names parts = some place := by
  induction parts generalizing names with
  | nil =>
      exact h
  | cons part parts ih =>
      unfold walk at h ⊢
      split at h
      case isTrue hFolder =>
        rw [if_pos (hMore names hFolder)]
        exact ih h
      case isFalse =>
        simp at h

/- A last part leads on from where the others lead. -/
theorem walk_append
    {isFolder : List Text → Bool}
    {names place parts : List Text}
    (hFolder : isFolder place = true)
    (h : walk isFolder names parts = some place)
    (part : Text) :
    walk isFolder names (parts ++ [part]) =
      some (onward place part) := by
  induction parts generalizing names with
  | nil =>
      cases h
      rw [List.nil_append, walk, if_pos hFolder, walk]
  | cons first parts ih =>
      rw [List.cons_append]
      unfold walk at h ⊢
      split at h
      case isTrue hHere =>
        rw [if_pos hHere]
        exact ih h
      case isFalse =>
        simp at h

/-
  A tree in which names have a content. All other files are
  as they were, and no folder is missing.
-/
structure HoldsAt
    (names : List Text)
    (content : List UInt8)
    (d after : FileTree) : Prop where
  here : after.here = d.here
  file : after.file? names = some content
  others :
    ∀ other, other ≠ names →
      after.file? other = d.file? other
  folders :
    ∀ other, d.node other = some .folder →
      after.node other = some .folder

theorem HoldsAt.of_widens
    {names : List Text}
    {content : List UInt8}
    {d wider after : FileTree}
    (h : HoldsAt names content wider after)
    (hWidens : d.Widens wider) :
    HoldsAt names content d after where
  here := h.here.trans hWidens.here
  file := h.file
  others other hOther :=
    (h.others other hOther).trans (hWidens.files other)
  folders other hFolder :=
    h.folders other (hWidens.folders other hFolder)

theorem holdsAt_of_writeFile?
    {d after : FileTree}
    {names : List Text}
    {name : Text}
    {content : List UInt8}
    (h : d.writeFile? names name content = some after) :
    d.node names = some .folder ∧
      HoldsAt (names ++ [name]) content d after := by
  unfold writeFile? at h
  split at h
  case isFalse =>
    simp at h
  case isTrue hRoom =>
    rw [← Option.some.inj h]
    refine ⟨hRoom.1, rfl, by simp [put, file?], ?_, ?_⟩
    · intro other hOther
      simp [put, file?, hOther]
    · intro other hFolder
      have hOther : other ≠ names ++ [name] := by
        rintro rfl
        exact hRoom.2 hFolder
      simp [put, hOther, hFolder]


/-
  Writing at a path makes the folders on its way, and then
  the file of its last name.
-/
theorem exists_of_write?
    {d after : FileTree}
    {p : Path}
    {content : List UInt8}
    {names : List Text}
    (h : d.write? p content = some (after, names)) :
    ∃ name wider folder,
      p.parts = p.parts.dropLast ++ [name] ∧
        name ≠ "..".toList ∧
        d.makeFolders? (d.start p) p.parts.dropLast =
          some (wider, folder) ∧
        wider.writeFile? folder name content = some after ∧
        names = folder ++ [name] := by
  rcases Option.bind_eq_some_iff.1 h with ⟨name, hName, h⟩
  have hParts : p.parts = p.parts.dropLast ++ [name] := by
    rcases List.getLast?_eq_some_iff.1 hName with
      ⟨front, hFront⟩
    rw [hFront, List.dropLast_concat]
  split at h
  case isTrue =>
    simp at h
  case isFalse hPlain =>
    rcases Option.bind_eq_some_iff.1 h with
      ⟨⟨wider, folder⟩, hMade, h⟩
    rcases Option.bind_eq_some_iff.1 h with
      ⟨written, hWritten, h⟩
    simp only [pure, Option.some.injEq, Prod.mk.injEq] at h
    rcases h with ⟨rfl, rfl⟩
    exact ⟨name, wider, folder, hParts, hPlain, hMade,
      hWritten, rfl⟩

/-
  A file that has been written at a path is found there, and
  no other file has changed.
-/
theorem holdsAt_of_write?
    {d after : FileTree}
    {p : Path}
    {content : List UInt8}
    {names : List Text}
    (h : d.write? p content = some (after, names)) :
    after.locate? p = some names ∧
      HoldsAt names content d after := by
  rcases exists_of_write? h with
    ⟨name, wider, folder, hParts, hPlain, hMade, hWritten,
      rfl⟩
  rcases walk_of_makeFolders? (d.node_start p) hMade with
    ⟨hWidens, hWalk⟩
  rcases holdsAt_of_writeFile? hWritten with
    ⟨hFolder, hHolds⟩
  -- The folders that were made are there when the file is.
  have hMore (place : List Text)
      (hPlace : wider.isFolder place = true) :
      after.isFolder place = true :=
    isFolder_iff.2
      (hHolds.folders place (isFolder_iff.1 hPlace))
  have hStart : after.start p = d.start p := by
    rw [start, start, hHolds.here, hWidens.here]
  refine ⟨?_, hHolds.of_widens hWidens⟩
  rw [locate?, hStart, hParts,
    walk_append (hMore folder (isFolder_iff.2 hFolder))
      (walk_mono hMore hWalk), onward, if_neg hPlain]

end FileTree

end StackCalc

------------------------------------------------------------
-- Results
------------------------------------------------------------

namespace StackCalc

namespace CommandLine

/-
  The values that the program in a file leaves, all of them
  short enough to be written.
-/
inductive Leaves (depth : Nat) :
    Option (List UInt8) → Stack → Prop
  | values
      {bytes : List UInt8}
      {program : Text}
      {s : Stack}
      (hText : decode? bytes = some program)
      (hRun :
        Run.program (programLines program) [] depth = .ok s)
      (hShort :
        ∀ z, .integer z ∈ s → Decimal.isShort z = true) :
      Leaves depth (some bytes) s

/- A file leaves one stack at most. -/
theorem Leaves.unique
    {depth : Nat}
    {content : Option (List UInt8)}
    {s s' : Stack}
    (h : Leaves depth content s)
    (h' : Leaves depth content s') :
    s = s' := by
  cases h with
  | values hText hRun hShort =>
      cases h' with
      | values hText' hRun' hShort' =>
          rw [hText] at hText'
          cases hText'
          rw [hRun] at hRun'
          exact Except.ok.inj hRun'

/- Only integers can be too long to be written. -/
theorem render_isSome_iff
    (v : Value) :
    v.render.isSome = true ↔
      ∀ z, v = .integer z → Decimal.isShort z = true := by
  cases v with
  | integer z =>
      simp [Value.render, Decimal.intText?]
  | _ =>
      simp [Value.render]

/- The values of a stack are written if each can be. -/
theorem renderStack?_eq_some_iff
    {s : Stack}
    {values : List Text} :
    renderStack? s = some values ↔
      (∀ z, .integer z ∈ s → Decimal.isShort z = true) ∧
        values = s.reverse.map Value.spelling := by
  rw [renderStack?, Literal.mapM_eq_some_iff]
  constructor
  · intro hTexts
    refine ⟨?_, ?_⟩
    · intro z hz
      have hMem :
          (Value.integer z).render ∈ values.map some := by
        rw [← hTexts]
        exact List.mem_map_of_mem (List.mem_reverse.2 hz)
      rcases List.mem_map.1 hMem with ⟨t, -, ht⟩
      exact (render_isSome_iff _).1 (by simp [← ht]) z rfl
    · calc
        values = (values.map some).map (·.getD []) := by
          simp [Function.comp_def]
        _ = s.reverse.map Value.spelling := by
          rw [← hTexts, List.map_map]
          rfl
  · rintro ⟨hShort, rfl⟩
    rw [List.map_map]
    apply List.map_congr_left
    intro v hv
    apply Value.render_eq_spelling_of_isSome
    rw [render_isSome_iff]
    rintro z rfl
    exact hShort z (List.mem_reverse.1 hv)

end CommandLine

namespace Run

/- What is reported is never that there was no depth left. -/
theorem reported_isFinished
    (r : Outcome) :
    (reported r).IsFinished := by
  cases r with
  | ok s =>
      trivial
  | error f =>
      rcases f with ⟨cause, left⟩
      cases cause with
      | _ =>
          simp [reported]

end Run

end StackCalc

------------------------------------------------------------
-- Execution
------------------------------------------------------------

namespace StackCalc

namespace CommandLine

/- How a command ends that has no result. -/
inductive IsFailure : Ending → Prop
  | fault : IsFailure (.exit 1)
  | missing : IsFailure (.exit 2)
  | undecodable : IsFailure (.broken .undecodable)
  | tooManyDigits : IsFailure (.broken .tooManyDigits)

/- The report of a command that writes texts to a path. -/
def Report.writing
    (o : Options)
    (p : Path)
    (values log : List Text) : Report where
  ending := .exit 0
  printed := if o.echo then values else []
  log := log
  written := some (p, unlines values)

/-
  The lines of a program are run to their end and all their
  values written, or the command is silent.
-/
theorem executeLines_cases
    (o : Options)
    (p : Path)
    (lines : List Text)
    (depth : Nat) :
    (∃ s values log,
      Run.program lines [] depth = .ok s ∧
        (∀ z, .integer z ∈ s → Decimal.isShort z = true) ∧
        renderStack? s = some values ∧
        executeLines o p lines depth =
          .writing o p values log) ∨
      (∀ s, Run.program lines [] depth = .ok s →
          ¬ ∀ z, .integer z ∈ s → Decimal.isShort z = true) ∧
        ∃ ending log, IsFailure ending ∧
          executeLines o p lines depth =
            .silent ending log := by
  unfold executeLines
  cases hRun : Run.program lines [] depth with
  | error f =>
      have hFinished :
          (Run.program lines [] depth).IsFinished :=
        Run.reported_isFinished _
      rw [hRun] at hFinished
      refine .inr ⟨by simp, ?_⟩
      rcases f with ⟨cause, left⟩
      cases cause with
      | fault f =>
          exact ⟨_, _, .fault, rfl⟩
      | tooManyDigits =>
          exact ⟨_, _, .tooManyDigits, rfl⟩
      | outOfDepth =>
          exact absurd rfl hFinished
  | ok s =>
      simp only
      cases hValues : renderStack? s with
      | none =>
          refine .inr ⟨?_, _, _, .tooManyDigits, rfl⟩
          intro s' hs hShort
          rw [← Except.ok.inj hs] at hShort
          have hSome :=
            renderStack?_eq_some_iff.2 ⟨hShort, rfl⟩
          rw [hValues] at hSome
          simp at hSome
      | some values =>
          have hShort := (renderStack?_eq_some_iff.1 hValues).1
          exact .inl ⟨s, values, _, rfl, hShort, hValues, rfl⟩

/-
  A command writes its result, or it is silent. It is silent
  as well if it has nowhere to write to.
-/
theorem execute_cases
    (o : Options)
    (content : Option (List UInt8))
    (depth : Nat) :
    (∃ s values p log,
      Leaves depth content s ∧
        renderStack? s = some values ∧
        outputPath? o = some p ∧
        execute o content depth =
          .writing o p values log) ∨
      ((∀ s, ¬ Leaves depth content s) ∧
        ∃ ending log, IsFailure ending ∧
          execute o content depth = .silent ending log) ∨
      (content ≠ none ∧ outputPath? o = none ∧
        execute o content depth =
          .silent (.broken .namelessPath) []) := by
  cases content with
  | none =>
      refine .inr (.inl ⟨?_, _, _, .missing, rfl⟩)
      intro s hLeaves
      cases hLeaves
  | some bytes =>
      -- Where to write to is known before anything is read.
      cases hPath : outputPath? o with
      | none =>
          refine .inr (.inr ⟨by simp, rfl, ?_⟩)
          simp [execute, hPath]
      | some p =>
          cases hText : decode? bytes with
          | none =>
              refine .inr (.inl ⟨?_, _, [], .undecodable,
                by simp [execute, readProgram?, hPath, hText]⟩)
              intro s hLeaves
              cases hLeaves with
              | values hText' hRun hShort =>
                  simp [hText] at hText'
          | some program =>
              have hExecute :
                  execute o (some bytes) depth =
                    executeLines o p (programLines program)
                      depth := by
                simp [execute, readProgram?, hPath, hText]
              rw [hExecute]
              rcases executeLines_cases o p
                  (programLines program) depth with
                ⟨s, values, log, hRun, hShort, hValues,
                    hReport⟩ |
                  ⟨hNone, hSilent⟩
              · exact .inl ⟨s, values, p, log,
                  .values hText hRun hShort, hValues, rfl,
                  hReport⟩
              · refine .inr (.inl ⟨?_, hSilent⟩)
                intro s hLeaves
                cases hLeaves with
                | values hText' hRun hShort =>
                    rw [hText] at hText'
                    cases hText'
                    exact hNone s hRun hShort

end CommandLine

end StackCalc

------------------------------------------------------------
-- Delivery
------------------------------------------------------------

namespace StackCalc

namespace CommandLine

/-
  Where the result of a command goes: to the path given if
  there is one, and otherwise to the one that is made out
  of the path of the program.
-/
inductive GoesTo (o : Options) : Path → Prop
  | given
      {t : Text}
      (hOutput : o.output = some t)
      (hText : t ≠ []) :
      GoesTo o (.ofText t)
  | derived
      {p : Path}
      (hOutput : o.output = none ∨ o.output = some [])
      (hDefault :
        Path.defaultOutput? (.ofText o.input) = some p) :
      GoesTo o p

theorem goesTo_iff
    {o : Options}
    {p : Path} :
    GoesTo o p ↔ outputPath? o = some p := by
  constructor
  · intro h
    cases h with
    | @given t hOutput hText =>
        cases t with
        | nil =>
            exact absurd rfl hText
        | cons c t =>
            simp [outputPath?, hOutput]
    | derived hOutput hDefault =>
        rcases hOutput with hNone | hEmpty
        · simp [outputPath?, hNone, hDefault]
        · simp [outputPath?, hEmpty, hDefault]
  · intro h
    unfold outputPath? at h
    split at h
    · rename_i c t hOutput
      rw [← Option.some.inj h]
      exact .given hOutput (List.cons_ne_nil c t)
    · rename_i hOther
      refine .derived ?_ h
      cases hOutput : o.output with
      | none =>
          exact .inl rfl
      | some t =>
          cases t with
          | nil =>
              exact .inr rfl
          | cons c t =>
              exact absurd hOutput (hOther c t)

/- A program whose path has a name has where to write to. -/
theorem outputPath?_ne_none
    {o : Options}
    (hName : (Path.ofText o.input).name? ≠ none) :
    outputPath? o ≠ none := by
  unfold outputPath? Path.defaultOutput?
  split
  · simp
  · split
    · exact absurd ‹_› hName
    · split
      · simp
      · simp

/-
  The files that are listed as new or changed are those that
  are not the same in the tree after a command.
-/
theorem lookup_changes_iff
    {d : FileTree}
    {r : Report}
    {names : List Text}
    {bytes : List UInt8} :
    (changes d r).lookup names = some bytes ↔
      (treeAfter d r).file? names = some bytes ∧
        d.file? names ≠ some bytes := by
  unfold changes treeAfter FileTree.changes
  cases r.written with
  | none =>
      simp
  | some file =>
      rcases file with ⟨p, t⟩
      simp only
      cases hWrite : d.write? p (encode t) with
      | none =>
          simp
      | some result =>
          rcases result with ⟨after, place⟩
          have hHolds := (FileTree.holdsAt_of_write? hWrite).2
          simp only
          by_cases hPlace : names = place
          · -- The file that was written may be as it was.
            rw [hPlace, hHolds.file, Option.some_inj]
            split
            · rename_i hSame
              simp [hSame]
            · rename_i hOther
              constructor
              · intro hBytes
                obtain rfl : encode t = bytes := by
                  simpa using hBytes
                exact ⟨rfl, hOther⟩
              · rintro ⟨rfl, -⟩
                simp
          · rw [hHolds.others names hPlace]
            split
            · simp
            · simp [List.lookup_cons,
                beq_eq_false_iff_ne.2 hPlace]

/- What a command prints. -/
def Report.stdout (r : Report) : Text :=
  unlines r.printed

/-
  A command that delivers a text: it writes it where it was
  told to and prints the same text or nothing. If a file can
  be written there, it holds the text, and all other files
  are as they were.
-/
structure Report.Delivers
    (d : FileTree)
    (o : Options)
    (t : Text)
    (r : Report) : Prop where
  ending : r.ending = .exit 0
  stdout : r.stdout = if o.echo then t else []
  written : ∃ p, GoesTo o p ∧ r.written = some (p, t)
  files :
    ∀ p after names, GoesTo o p →
      d.write? p (encode t) = some (after, names) →
      treeAfter d r = after ∧
        after.content? p = some (encode t) ∧
        FileTree.HoldsAt names (encode t) d after

/-
  A command that delivers nothing: it neither writes nor
  prints, and all files are as they were.
-/
structure Report.Withholds
    (d : FileTree)
    (r : Report) : Prop where
  ending : IsFailure r.ending
  stdout : r.stdout = []
  written : r.written = none
  files : treeAfter d r = d

theorem withholds_silent
    (d : FileTree)
    {ending : Ending}
    (h : IsFailure ending)
    (log : List Text) :
    (Report.silent ending log).Withholds d :=
  ⟨h, rfl, rfl, rfl⟩

theorem delivers_writing
    (d : FileTree)
    {o : Options}
    {p : Path}
    (hPath : outputPath? o = some p)
    (values log : List Text) :
    (Report.writing o p values log).Delivers d o
      (unlines values) where
  ending := rfl
  stdout := by
    unfold Report.stdout Report.writing
    split
    · rfl
    · rfl
  written :=
    ⟨p, goesTo_iff.2 hPath, rfl⟩
  files := by
    intro p' after names hGoes hWrite
    rw [goesTo_iff, hPath] at hGoes
    cases hGoes
    rcases FileTree.holdsAt_of_write? hWrite with
      ⟨hLocated, hHolds⟩
    refine ⟨?_, ?_, hHolds⟩
    · simp only [treeAfter, Report.writing, hWrite]
    · rw [FileTree.content?, hLocated]
      exact hHolds.file

/-
  Whatever the content of its file is, a program delivers
  the texts of all values that it leaves, or nothing. What
  has a content has a name.
-/
theorem execute_delivers_or_withholds
    {o : Options}
    {content : Option (List UInt8)}
    (hName :
      content ≠ none → (Path.ofText o.input).name? ≠ none)
    (d : FileTree)
    (depth : Nat) :
    (∃ s values,
      Leaves depth content s ∧
        renderStack? s = some values ∧
        (execute o content depth).Delivers d o
          (unlines values)) ∨
      (∀ s, ¬ Leaves depth content s) ∧
        (execute o content depth).Withholds d := by
  rcases execute_cases o content depth with
    ⟨s, values, p, log, hLeaves, hValues, hPath, hReport⟩ |
      ⟨hNone, ending, log, hFailure, hReport⟩ |
      ⟨hFile, hNowhere, -⟩
  · rw [hReport]
    exact .inl ⟨s, values, hLeaves, hValues,
      delivers_writing d hPath values log⟩
  · rw [hReport]
    exact .inr ⟨hNone, withholds_silent d hFailure log⟩
  · exact absurd hNowhere (outputPath?_ne_none (hName hFile))

/-
  A command delivers the texts of all values that the
  program leaves, each on a line of its own, if its file is
  there, can be read, runs to its end and leaves values that
  can be written. In every other case it delivers nothing.
  The paths of the program and of its result may be absolute
  and may lead out of the folder that the command works in.
-/
theorem run_delivers_or_withholds
    {arguments : List Text}
    {o : Options}
    (hParse : Arguments.parse arguments = .run o)
    (d : FileTree)
    (depth : Nat) :
    ((run d arguments depth).written.isSome = true ↔
        ∃ s, Leaves depth (d.content? (.ofText o.input)) s) ∧
      (∀ s, Leaves depth (d.content? (.ofText o.input)) s →
        ∃ values, renderStack? s = some values ∧
          (run d arguments depth).Delivers d o
            (unlines values)) ∧
      ((¬ ∃ s,
          Leaves depth (d.content? (.ofText o.input)) s) →
        (run d arguments depth).Withholds d) := by
  have hRun :
      run d arguments depth =
        execute o (d.content? (.ofText o.input)) depth := by
    simp only [run, hParse]
  have hName :
      d.content? (.ofText o.input) ≠ none →
        (Path.ofText o.input).name? ≠ none := by
    intro hFile
    rcases Option.ne_none_iff_exists'.1 hFile with
      ⟨bytes, hBytes⟩
    exact FileTree.name?_ne_none_of_content? hBytes
  rw [hRun]
  rcases execute_delivers_or_withholds hName d depth with
    ⟨s, values, hLeaves, hValues, hDelivers⟩ |
      ⟨hNone, hWithholds⟩
  · rcases hDelivers.written with ⟨p, -, hWritten⟩
    refine ⟨?_, ?_, ?_⟩
    · exact iff_of_true (by rw [hWritten]; rfl) ⟨s, hLeaves⟩
    · intro s' hLeaves'
      rw [← hLeaves.unique hLeaves']
      exact ⟨values, hValues, hDelivers⟩
    · intro hNone
      exact absurd ⟨s, hLeaves⟩ hNone
  · refine ⟨?_, ?_, ?_⟩
    · refine iff_of_false ?_ (not_exists.2 hNone)
      simp [hWithholds.written]
    · intro s hLeaves
      exact absurd hLeaves (hNone s)
    · intro _
      exact hWithholds

/-
  A program of two lines stands in a folder beside the one
  that the command works in. It is run with its absolute
  path and its result printed, to be written above that
  folder, and again where there is no such program.
-/
theorem run_delivers_or_withholds_twice :
    let files : List (List Text × List UInt8) :=
      [(["t".toList, "a".toList],
        encode "\"a\" 2 *\n1 2 <".toList)]
    let d := FileTree.ofFiles files ["w".toList]
    let arguments : List Text :=
      ["/t/a".toList, "--print".toList,
        "--output=../b/c".toList]
    let o : Options :=
      ⟨"/t/a".toList, some "../b/c".toList, true, false⟩
    Arguments.parse arguments = .run o ∧
      GoesTo o (.ofText "../b/c".toList) ∧
      (d.write? (.ofText "../b/c".toList)
          (encode "\"aa\"\ntrue\n".toList)).map (·.2) =
        some ["b".toList, "c".toList] ∧
      (run d arguments).Delivers d o
        "\"aa\"\ntrue\n".toList ∧
      (run ([] : List (List Text × List UInt8))
        arguments).Withholds
          ([] : List (List Text × List UInt8)) := by
  intro files d arguments o
  have hParse : Arguments.parse arguments = .run o := by
    decide
  have hGoes : GoesTo o (.ofText "../b/c".toList) :=
    .given rfl (by decide)
  have hPlace :
      (d.write? (.ofText "../b/c".toList)
          (encode "\"aa\"\ntrue\n".toList)).map (·.2) =
        some ["b".toList, "c".toList] := by
    decide
  refine ⟨hParse, hGoes, hPlace, ?_, ?_⟩
  · have hText :
        decode? (encode "\"a\" 2 *\n1 2 <".toList) =
          some "\"a\" 2 *\n1 2 <".toList := by
      decide
    have hFile :
        d.content? (.ofText o.input) =
          some (encode "\"a\" 2 *\n1 2 <".toList) := by
      rfl
    have hLeaves :
        Leaves Run.maxDepth (d.content? (.ofText o.input))
          [.boolean true, .string "\"aa\"".toList] := by
      rw [hFile]
      exact .values hText rfl (by simp)
    rcases (run_delivers_or_withholds hParse d
        Run.maxDepth).2.1 _ hLeaves with
      ⟨values, hValues, hDelivers⟩
    cases hValues
    exact hDelivers
  · refine (run_delivers_or_withholds hParse _
      Run.maxDepth).2.2 ?_
    rintro ⟨s, hLeaves⟩
    cases hLeaves

end CommandLine

end StackCalc
