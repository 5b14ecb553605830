import StackCalc.Proofs.Alphabet
import StackCalc.Proofs.Delivery

/-
  The lines of a result are the texts of its values.

  A command writes each value on a line of its own. Who
  reads the result back line by line gets the same values
  only if no text of a value has a line end in it. A program
  is read in lines, so that none of its tokens has one, the
  calculator writes none by itself, and therefore no string
  of a run ever holds one.

  Main declarations:
    * `Text.IsInLine`
    * `CommandLine.lines_unlines`
    * `CommandLine.decode?_encode`
    * `CommandLine.inLine_of_reaches`
    * `CommandLine.run_delivers_lines`
-/

------------------------------------------------------------
-- Lines
------------------------------------------------------------

namespace StackCalc

namespace Text

/- Characters that do not end a line. -/
def IsInLine (c : Char) : Prop :=
  isLineEnd c = false

/- The calculator writes no line ends by itself. -/
theorem isInLine_of_isWritten
    (c : Char)
    (h : IsWritten c) :
    IsInLine c := by
  have hListed :
      Over (fun d => ¬ IsWritten d)
        [ '\n', '\r', '\x0b', '\x0c', '\x1c', '\x1d',
          '\x1e', '\u0085', '\u2028', '\u2029' ] := by
    decide
  rw [IsInLine, ← Bool.not_eq_true]
  intro hEnd
  exact hListed c (List.contains_iff_mem.1 hEnd) h

/-
  Lines have no line ends in them if the current line has
  none when they are split off.
-/
theorem over_of_mem_linesFrom
    {cur t line : Text}
    (hCur : Over IsInLine cur)
    (h : line ∈ linesFrom cur t) :
    Over IsInLine line := by
  fun_induction linesFrom cur t with
  | case1 =>
      simp at h
  | case2 cur hNonempty =>
      rw [List.mem_singleton.1 h]
      exact over_reverse_iff.2 hCur
  | case3 cur rest ih =>
      rcases List.mem_cons.1 h with rfl | hRest
      · exact over_reverse_iff.2 hCur
      · exact ih over_nil hRest
  | case4 cur c rest hc hEnd ih =>
      rcases List.mem_cons.1 h with rfl | hRest
      · exact over_reverse_iff.2 hCur
      · exact ih over_nil hRest
  | case5 cur c rest hc hEnd ih =>
      have hChar : IsInLine c :=
        Bool.eq_false_of_not_eq_true hEnd
      exact ih (over_cons_iff.2 ⟨hChar, hCur⟩) h

theorem over_of_mem_lines
    {t line : Text}
    (h : line ∈ lines t) :
    Over IsInLine line :=
  over_of_mem_linesFrom over_nil h

/- A character within a line is added to the current line. -/
theorem linesFrom_cons
    {c : Char}
    (hc : IsInLine c)
    (cur rest : Text) :
    linesFrom cur (c :: rest) =
      linesFrom (c :: cur) rest := by
  rw [linesFrom.eq_3, if_neg]
  · rw [hc]
    exact Bool.false_ne_true
  · -- Only a carriage return can be half of a line end.
    rintro more rfl -
    simp [IsInLine, isLineEnd] at hc

/- A line feed after a line ends it. -/
theorem linesFrom_append
    {line : Text}
    (h : Over IsInLine line)
    (cur rest : Text) :
    linesFrom cur (line ++ '\n' :: rest) =
      (cur.reverse ++ line) :: linesFrom [] rest := by
  induction line generalizing cur with
  | nil =>
      simp [linesFrom, isLineEnd]
  | cons c line ih =>
      rcases over_cons_iff.1 h with ⟨hc, hLine⟩
      rw [List.cons_append, linesFrom_cons hc, ih hLine]
      simp

end Text

namespace CommandLine

open Text

/- Lines are split off again where they have been ended. -/
theorem lines_unlines
    {ls : List Text}
    (h : ∀ line ∈ ls, Over IsInLine line) :
    lines (unlines ls) = ls := by
  induction ls with
  | nil =>
      rfl
  | cons line ls ih =>
      rw [List.forall_mem_cons] at h
      have hText :
          unlines (line :: ls) =
            line ++ '\n' :: unlines ls := by
        simp [unlines]
      rw [lines, hText, linesFrom_append h.1]
      exact congrArg (line :: ·) (ih h.2)

/- What is encoded can be decoded. -/
theorem decode?_encode
    (t : Text) :
    decode? (encode t) = some t := by
  have hValid := (String.ofList t).isValidUTF8
  have hString :
      String.fromUTF8? (String.ofList t).toUTF8 =
        some (String.ofList t) := by
    rw [String.fromUTF8?, String.toUTF8_eq_toByteArray,
      dif_pos hValid]
    rfl
  unfold decode? encode
  rw [Array.toArray_toList, hString]
  simp

end CommandLine

end StackCalc

------------------------------------------------------------
-- Results
------------------------------------------------------------

namespace StackCalc

namespace CommandLine

open Text

/- A program is read in lines, and so are its tokens. -/
theorem over_of_mem_tokensOf_programLines
    (program : Text) :
    ∀ t ∈ Run.tokensOf (programLines program),
      Over IsInLine t := by
  apply Run.over_of_mem_tokensOf
  intro line hLine
  rcases List.mem_map.1 hLine with ⟨whole, hWhole, rfl⟩
  exact (over_of_mem_lines hWhole).of_subset
    (strip_subset whole)

/-
  No string has a line end in it at any moment of a run of
  a program that was read in lines.
-/
theorem inLine_of_reaches
    {program t : Text}
    {depth : Nat}
    {m : Run.Moment}
    (hReaches :
      Run.Reaches
        ⟨depth, Run.tokensOf (programLines program), []⟩ m)
    (ht : .string t ∈ m.stack ∨ .deferred t ∈ m.stack) :
    Over IsInLine t := by
  have hInv := Run.invariant_writtenOver isInLine_of_isWritten
  have hTexts := over_of_mem_tokensOf_programLines program
  have hValues :=
    (hInv.of_reaches hReaches ⟨hTexts, by simp⟩).values
  rcases ht with hString | hDeferred
  · exact Value.writtenOver_string_iff.1 (hValues _ hString)
  · exact Value.writtenOver_deferred_iff.1
      (hValues _ hDeferred)

/- The values that such a program leaves are in lines. -/
theorem inLine_of_renderStack?
    {program : Text}
    {depth : Nat}
    {s : Stack}
    {values : List Text}
    (hRun :
      Run.program (programLines program) [] depth = .ok s)
    (hValues : renderStack? s = some values) :
    ∀ t ∈ values, Over IsInLine t := by
  have hInv := Run.invariant_writtenOver isInLine_of_isWritten
  have hTexts := over_of_mem_tokensOf_programLines program
  have hLeft :=
    hInv.of_program hTexts (s := []) (by simp) depth
  rw [hRun] at hLeft
  rw [renderStack?, Literal.mapM_eq_some_iff] at hValues
  intro t ht
  have hMem : some t ∈ s.reverse.map Value.render := by
    rw [hValues]
    exact List.mem_map_of_mem ht
  rcases List.mem_map.1 hMem with ⟨v, hv, hText⟩
  exact hLeft v (List.mem_reverse.1 hv) t hText

/-
  A command that exits in order on a program that is read
  has delivered a text whose lines, when it is read back,
  are the texts of the values that the program leaves, one
  for each value. This is so since no string in the run has
  a line end in it.
-/
theorem run_delivers_lines
    {d : FileTree}
    {arguments lines : List Text}
    {o : Options}
    {bytes : List UInt8}
    (hParse : Arguments.parse arguments = .run o)
    (hFile : d.content? (.ofText o.input) = some bytes)
    (hRead : readProgram? bytes = some lines)
    (depth : Nat) :
    ((run d arguments depth).ending = .exit 0 →
        ∃ s values t,
          Run.program lines [] depth = .ok s ∧
            renderStack? s = some values ∧
            (run d arguments depth).Delivers d o t ∧
            (decode? (encode t)).map Text.lines =
              some values) ∧
      ∀ m t,
        Run.Reaches ⟨depth, Run.tokensOf lines, []⟩ m →
        .string t ∈ m.stack ∨ .deferred t ∈ m.stack →
        Over IsInLine t := by
  rcases Option.map_eq_some_iff.1 hRead with
    ⟨program, hText, rfl⟩
  refine ⟨?_, fun _ _ => inLine_of_reaches⟩
  have hRun :
      run d arguments depth =
        execute o (some bytes) depth := by
    simp only [run, hParse, hFile]
  rw [hRun]
  intro hExit
  have hName :
      some bytes ≠ none →
        (Path.ofText o.input).name? ≠ none :=
    fun _ => FileTree.name?_ne_none_of_content? hFile
  rcases execute_delivers_or_withholds hName d depth with
    ⟨s, values, hLeaves, hValues, hDelivers⟩ |
      ⟨-, hWithholds⟩
  · cases hLeaves with
    | values hText' hProgram hShort =>
        obtain rfl :=
          Option.some.inj (hText.symm.trans hText')
        have hInLine :=
          inLine_of_renderStack? hProgram hValues
        refine ⟨s, values, unlines values, hProgram, hValues,
          hDelivers, ?_⟩
        rw [decode?_encode, Option.map_some,
          lines_unlines hInLine]
  · have hFailure := hWithholds.ending
    rw [hExit] at hFailure
    cases hFailure

/-
  A program whose lines end in a vertical tab and in two
  characters leaves a string and a deferred operator. It is
  found by a path from the root, and its result goes beside
  it.
-/
theorem run_delivers_lines_joined :
    let d := FileTree.ofFiles
      [(["t".toList, "a".toList],
        encode "\"a\"\x0b\"b\" +\r\n'DUP".toList)]
      ["w".toList]
    let o : Options := ⟨"/t/a".toList, none, false, false⟩
    let lines : List Text :=
      ["\"a\"".toList, "\"b\" +".toList, "'DUP".toList]
    Arguments.parse ["/t/a".toList] = .run o ∧
      (d.content? (.ofText o.input)).bind readProgram? =
        some lines ∧
      (run d ["/t/a".toList]).ending = .exit 0 ∧
      ∃ t,
        (run d ["/t/a".toList]).Delivers d o t ∧
          (decode? (encode t)).map Text.lines =
            some ["\"ab\"".toList, "DUP".toList] := by
  intro d o lines
  have hParse :
      Arguments.parse ["/t/a".toList] = .run o := by
    decide
  have hRead :
      readProgram?
          (encode "\"a\"\x0b\"b\" +\r\n'DUP".toList) =
        some lines := by
    decide
  have hExit : (run d ["/t/a".toList]).ending = .exit 0 := by
    rfl
  refine ⟨hParse, hRead, hExit, ?_⟩
  rcases (run_delivers_lines hParse rfl hRead
      Run.maxDepth).1 hExit with
    ⟨s, values, t, hRun, hValues, hDelivers, hLines⟩
  obtain rfl :
      [.deferred "DUP".toList, .string "\"ab\"".toList] = s :=
    Except.ok.inj hRun
  obtain rfl :
      ["\"ab\"".toList, "DUP".toList] = values :=
    Option.some.inj hValues
  exact ⟨t, hDelivers, hLines⟩

end CommandLine

end StackCalc
