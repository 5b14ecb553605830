import StackCalc.Proofs.Spelling

/-
  Blocks pass their arguments on exactly.

  The arguments of a block are written into its line and
  read back when the line is run. A block whose line only
  names placeholders therefore gives the values that it was
  given, chosen and ordered by the placeholders.

  Main declarations:
    * `Block.parse_counted`
    * `Block.parse_written`
    * `Block.fill_placeholder`
    * `Block.insertSelf_of_not_mem`
    * `Block.substitute_selection`
    * `Run.dispatch_selection`
-/

------------------------------------------------------------
-- Written Blocks
------------------------------------------------------------

namespace StackCalc

namespace Text

theorem dropBlanks_eq_self
    {t : Text}
    (h : ∀ c ∈ t.head?, isBlank c = false) :
    dropBlanks t = t := by
  cases t with
  | nil =>
      rfl
  | cons c t =>
      exact dropBlanks_cons (h c rfl)

/- A text with no blanks at its ends is stripped of none. -/
theorem strip_eq_self
    {t : Text}
    (hFront : ∀ c ∈ t.head?, isBlank c = false)
    (hBack : ∀ c ∈ t.getLast?, isBlank c = false) :
    strip t = t := by
  have hReverse : dropBlanks t.reverse = t.reverse := by
    apply dropBlanks_eq_self
    rw [List.head?_reverse]
    exact hBack
  rw [strip, dropBlanks_eq_self hFront, hReverse,
    List.reverse_reverse]

end Text

namespace Block

/- The source of a block, its count given as a text. -/
def counted
    (count line : Text) : Text :=
  '{' :: (count ++ '|' :: line ++ ['}'])

/- The source of a block with a count and a line. -/
def written
    (n : Nat)
    (line : Text) : Text :=
  '{' :: (Decimal.natText n ++ '|' :: line ++ ['}'])

theorem isDigit_of_isCount
    {count : Text}
    {c : Char}
    (h : isCount count = true)
    (hc : c ∈ count) :
    c.isDigit = true :=
  List.all_eq_true.1 (Bool.and_eq_true_iff.1 h).2 c hc

/- A count is read as written. -/
theorem isCount_natText
    (n : Nat) :
    isCount (Decimal.natText n) = true := by
  rcases Decimal.exists_natText_eq_cons n with
    ⟨d, ds, hCons, -⟩
  have hDigits :
      (Decimal.natText n).all Char.isDigit = true := by
    rw [List.all_eq_true]
    intro c hc
    exact Decimal.isDigit_of_mem_natText hc
  rw [isCount, hDigits, hCons]
  rfl

/-
  A block is read as its count and, stripped, its line, if
  the count has no more digits than can be read.
-/
theorem parse_counted
    {count : Text}
    (h : isCount count = true)
    (line : Text) :
    parse (counted count line) =
      match Decimal.natValue? count with
      | none => .error .tooManyDigits
      | some n =>
          .ok ⟨counted count line, n, Text.strip line⟩ := by
  have hDigits :
      ∀ c ∈ count, decide (c ≠ '|') = true := by
    intro c hc
    have hDigit := isDigit_of_isCount h hc
    exact decide_eq_true (Text.ne_of_isDigit hDigit rfl)
  have hBlank : ∀ c ∈ count, Text.isBlank c = false :=
    fun c hc =>
      Text.isBlank_of_isDigit (isDigit_of_isCount h hc)
  have hStrip : Text.strip count = count :=
    Text.strip_eq_self
      (fun c hc => hBlank c (List.mem_of_mem_head? hc))
      (fun c hc => hBlank c (List.mem_of_mem_getLast? hc))
  have hWrapped :
      Text.isWrapped '{' '}' (counted count line) = true :=
    Text.isWrapped_wrap '{' '}' _
  have hUnwrap :
      Text.unwrap (counted count line) =
        count ++ '|' :: line :=
    Text.unwrap_wrap '{' '}' _
  unfold parse
  simp only [hWrapped, if_true, hUnwrap,
    List.dropWhile_append_of_pos hDigits,
    List.takeWhile_append_of_pos hDigits]
  cases hValue : Decimal.natValue? count with
  | none =>
      simp [hStrip, h, hValue]
  | some n =>
      simp [hStrip, h, hValue]

/- A written block has its count and, stripped, its line. -/
theorem parse_written
    {n : Nat}
    (h : Decimal.isShort n = true)
    (line : Text) :
    parse (written n line) =
      .ok ⟨written n line, n, Text.strip line⟩ := by
  have hRead := parse_counted (isCount_natText n) line
  rw [Decimal.natValue?_natText h] at hRead
  exact hRead

end Block

end StackCalc

------------------------------------------------------------
-- Placeholders
------------------------------------------------------------

namespace StackCalc

namespace Block

/- The placeholder for the value at a place. -/
def placeholderText (i : Nat) : Text :=
  'x' :: Decimal.natText i

/-
  A placeholder is filled with the text of its value, as
  long as no further digit stands after it.
-/
theorem fill_placeholder
    {source rest more t : Text}
    {args : List Value}
    {i : Nat}
    {v : Value}
    (hShort : Decimal.isShort i = true)
    (hArg : args[i]? = some v)
    (hRender : v.render = some t)
    (hEnd : Numeral.startsWithDigit rest = false)
    (hRest : fill source args rest = .ok more) :
    fill source args (placeholderText i ++ rest) =
      .ok (t ++ more) := by
  have hDigits :
      ∀ c ∈ Decimal.natText i, c.isDigit = true :=
    fun _ hc => Decimal.isDigit_of_mem_natText hc
  have hTake : rest.takeWhile Char.isDigit = [] := by
    cases rest with
    | nil =>
        rfl
    | cons c rest =>
        have hc : c.isDigit = false := by
          simpa [Numeral.startsWithDigit] using hEnd
        simp [hc]
  have hDrop : rest.dropWhile Char.isDigit = rest := by
    have hAll :=
      List.takeWhile_append_dropWhile
        (p := Char.isDigit) (l := rest)
    rwa [hTake, List.nil_append] at hAll
  have hStart :
      Numeral.startsWithDigit (Decimal.natText i ++ rest) =
        true := by
    rcases Decimal.exists_natText_eq_cons i with
      ⟨d, ds, hCons, hd⟩
    simp [Numeral.startsWithDigit, hCons, hd]
  have hPlaceholder :
      placeholder source args (Decimal.natText i) = .ok t := by
    simp [placeholder, Decimal.natValue?_natText hShort, hArg,
      hRender]
  rw [placeholderText, List.cons_append, fill,
    if_pos ⟨rfl, hStart⟩,
    List.takeWhile_append_of_pos hDigits,
    List.dropWhile_append_of_pos hDigits, hTake, hDrop,
    List.append_nil, hPlaceholder, hRest]

/- Any character but an `x` is kept. -/
theorem fill_cons
    {source rest more : Text}
    {args : List Value}
    {c : Char}
    (hc : c ≠ 'x')
    (hRest : fill source args rest = .ok more) :
    fill source args (c :: rest) = .ok (c :: more) := by
  rw [fill, if_neg (fun h => hc h.1), hRest]

/- A text without an `x` is kept. -/
theorem fill_append
    {source t rest more : Text}
    {args : List Value}
    (h : 'x' ∉ t)
    (hRest : fill source args rest = .ok more) :
    fill source args (t ++ rest) = .ok (t ++ more) := by
  induction t with
  | nil =>
      exact hRest
  | cons c t ih =>
      have hc : c ≠ 'x' := by
        rintro rfl
        exact h List.mem_cons_self
      exact fill_cons hc
        (ih fun hMem => h (List.mem_cons_of_mem c hMem))

/- Any character but an `S` is kept. -/
theorem insertSelf_cons
    {c : Char}
    (self rest : Text)
    (hc : c ≠ 'S') :
    insertSelf self (c :: rest) =
      c :: insertSelf self rest := by
  rw [insertSelf]
  rintro rest' rfl
  exact absurd rfl hc

/- Where there is no `S` there is no `SELF` to put in. -/
theorem insertSelf_append
    {t : Text}
    (self rest : Text)
    (h : 'S' ∉ t) :
    insertSelf self (t ++ rest) =
      t ++ insertSelf self rest := by
  induction t with
  | nil =>
      rfl
  | cons c t ih =>
      have hc : c ≠ 'S' := by
        rintro rfl
        exact h List.mem_cons_self
      rw [List.cons_append, insertSelf_cons self _ hc,
        ih fun hMem => h (List.mem_cons_of_mem c hMem),
        List.cons_append]

theorem insertSelf_of_not_mem
    {t : Text}
    (self : Text)
    (h : 'S' ∉ t) :
    insertSelf self t = t := by
  have hAll := insertSelf_append self [] h
  rwa [List.append_nil, insertSelf, List.append_nil] at hAll

end Block

end StackCalc

------------------------------------------------------------
-- Lines Of Placeholders
------------------------------------------------------------

namespace StackCalc

namespace Block

/- The line of the placeholders for some places. -/
def selectionLine (is : List Nat) : Text :=
  Text.joinWith [' '] (is.map placeholderText)

/- The block that takes `n` values and gives some of them. -/
def selection
    (n : Nat)
    (is : List Nat) : Text :=
  written n (selectionLine is)

example : selection 11 [10, 1] = "{11|x10 x1}".toList := by
  decide

theorem selectionLine_cons_cons
    (i j : Nat)
    (is : List Nat) :
    selectionLine (i :: j :: is) =
      placeholderText i ++ ' ' :: selectionLine (j :: is) :=
  Text.joinWith_cons_cons _ _ _ _

/- A line of placeholders starts with an `x`. -/
theorem exists_selectionLine_eq_cons
    (i : Nat)
    (is : List Nat) :
    ∃ rest, selectionLine (i :: is) = 'x' :: rest := by
  rcases Text.exists_joinWith_eq_append [' ']
      (placeholderText i) (is.map placeholderText) with
    ⟨rest, hJoin⟩
  exact ⟨Decimal.natText i ++ rest, hJoin⟩

/- A line of placeholders ends with a digit. -/
theorem getLast?_selectionLine
    {is : List Nat}
    {c : Char}
    (h : c ∈ (selectionLine is).getLast?) :
    c.isDigit = true := by
  induction is with
  | nil =>
      simp [selectionLine, Text.joinWith] at h
  | cons i is ih =>
      cases is with
      | nil =>
          have hLast : c ∈ (Decimal.natText i).getLast? := by
            rcases Decimal.exists_natText_eq_cons i with
              ⟨d, ds, hCons, -⟩
            rw [hCons]
            simpa [selectionLine, Text.joinWith,
              placeholderText, hCons] using h
          exact Decimal.isDigit_of_mem_natText
            (List.mem_of_mem_getLast? hLast)
      | cons j js =>
          apply ih
          rcases exists_selectionLine_eq_cons j js with
            ⟨rest, hCons⟩
          rw [selectionLine_cons_cons] at h
          rw [hCons] at h ⊢
          simpa using h

/- A line of placeholders is stripped of nothing. -/
theorem strip_selectionLine
    (is : List Nat) :
    Text.strip (selectionLine is) = selectionLine is := by
  apply Text.strip_eq_self
  · intro c hc
    cases is with
    | nil =>
        simp [selectionLine, Text.joinWith] at hc
    | cons i is =>
        rcases exists_selectionLine_eq_cons i is with
          ⟨rest, hCons⟩
        rw [hCons] at hc
        rw [← Option.some.inj hc]
        rfl
  · intro c hc
    exact Text.isBlank_of_isDigit (getLast?_selectionLine hc)

/- The values at some places of a list. -/
def chosen
    (args : List Value)
    (is : List (Fin args.length)) : List Value :=
  is.map args.get

/- Placeholders are filled with the texts of their values. -/
theorem fill_selectionLine
    {args : List Value}
    (source : Text)
    (hCount : Decimal.isShort args.length = true)
    (hArgs : ∀ v ∈ args, v.IsPlain)
    (is : List (Fin args.length)) :
    fill source args (selectionLine (is.map Fin.val)) =
      .ok (Text.joinWith [' ']
        ((chosen args is).map Value.spelling)) := by
  have hNil : fill source args [] = .ok [] := by
    rw [fill]
  have hStep :
      ∀ (i : Fin args.length) {rest more : Text},
        Numeral.startsWithDigit rest = false →
        fill source args rest = .ok more →
        fill source args (placeholderText i ++ rest) =
          .ok ((args.get i).spelling ++ more) := by
    intro i rest more hEnd hRest
    have hPlain : (args.get i).IsPlain :=
      hArgs _ (List.get_mem args i)
    exact fill_placeholder
      (Decimal.isShort_of_lt i.isLt hCount)
      (List.getElem?_eq_getElem i.isLt)
      (Value.render_eq_spelling hPlain) hEnd hRest
  induction is with
  | nil =>
      exact hNil
  | cons i is ih =>
      cases is with
      | nil =>
          have hOnly := hStep i rfl hNil
          rw [List.append_nil, List.append_nil] at hOnly
          exact hOnly
      | cons j js =>
          have hSpace := fill_cons (by decide : ' ' ≠ 'x') ih
          have hFirst := hStep i rfl hSpace
          rw [List.map_cons, List.map_cons,
            selectionLine_cons_cons, ← List.map_cons, hFirst]
          simp [chosen, Text.joinWith_cons_cons]

/- There is no `SELF` among the texts of plain values. -/
theorem not_mem_spellings
    {vs : List Value}
    (h : ∀ v ∈ vs, v.IsPlain) :
    'S' ∉ Text.joinWith [' '] (vs.map Value.spelling) := by
  intro hMem
  rcases Text.mem_joinWith hMem with hSep | ⟨t, ht, hc⟩
  · exact absurd hSep (by decide)
  · rcases List.mem_map.1 ht with ⟨v, hv, rfl⟩
    exact absurd (Value.mem_spelling (h v hv) hc) (by decide)

/- The line that a selection runs: the texts of its choice. -/
theorem substitute_selection
    {args : List Value}
    (hCount : Decimal.isShort args.length = true)
    (hArgs : ∀ v ∈ args, v.IsPlain)
    (is : List (Fin args.length)) :
    substitute
        ⟨selection args.length (is.map Fin.val), args.length,
          selectionLine (is.map Fin.val)⟩ args =
      .ok (Text.joinWith [' ']
        ((chosen args is).map Value.spelling)) := by
  have hChosen : ∀ v ∈ chosen args is, v.IsPlain := by
    intro v hv
    rcases List.mem_map.1 hv with ⟨i, -, rfl⟩
    exact hArgs _ (List.get_mem args i)
  have hFill :=
    fill_selectionLine
      (selection args.length (is.map Fin.val)) hCount hArgs is
  simp only [substitute, hFill]
  exact congrArg Except.ok
    (insertSelf_of_not_mem _ (not_mem_spellings hChosen))

end Block

end StackCalc

------------------------------------------------------------
-- Running A Selection
------------------------------------------------------------

namespace StackCalc

namespace Stack

/- Values on top of others are popped from the top down. -/
theorem popMany_append
    (args : List Value)
    (token : Text)
    (s : Stack) :
    popMany args.length token (args ++ s) = .ok (args, s) := by
  have hEnough :
      (args.length : Int) ≤ (args ++ s).length := by
    rw [List.length_append]
    omega
  have hCount : ¬ (args.length : Int) < 0 := by
    omega
  rw [popMany, if_neg hCount, require, if_pos hEnough]
  simp

end Stack

namespace Run

/-
  A block that only names placeholders gives the values at
  the places named, in the order named. The values below
  its arguments are left as they are.
-/
theorem dispatch_selection
    {args : List Value}
    (hCount : args.length < Nat.pow 10 Decimal.maxDigits)
    (hArgs : ∀ v ∈ args, v.IsPlain ∧ ¬ v.IsRowless)
    (is : List (Fin args.length))
    (depth : Nat)
    (s : Stack) :
    dispatch (depth + 2)
        (Block.selection args.length (is.map Fin.val))
        (args ++ s) =
      .ok ((is.map args.get).reverse ++ s) := by
  have hShort : Decimal.isShort args.length = true :=
    Decimal.isShort_natCast_iff.2 hCount
  have hPlain : ∀ v ∈ args, v.IsPlain :=
    fun v hv => (hArgs v hv).1
  have hChosen :
      ∀ v ∈ Block.chosen args is,
        v.IsPlain ∧ ¬ v.IsRowless := by
    intro v hv
    rcases List.mem_map.1 hv with ⟨i, -, rfl⟩
    exact hArgs _ (List.get_mem args i)
  have hParse :=
    Block.parse_written hShort
      (Block.selectionLine (is.map Fin.val))
  rw [Block.strip_selectionLine] at hParse
  have hSplit :
      Token.split (Text.joinWith [' ']
          ((Block.chosen args is).map Value.spelling)) =
        (Block.chosen args is).map Value.spelling := by
    apply Token.split_joinWith
    · intro t ht
      rcases List.mem_map.1 ht with ⟨v, hv, rfl⟩
      exact Value.isCompact_spelling (hChosen v hv).1
    · intro t ht
      rcases List.mem_map.1 ht with ⟨v, hv, rfl⟩
      exact Value.spelling_ne_nil (hChosen v hv).1
  have hRun :=
    Value.tokens_spelling hChosen depth []
  rw [← hSplit, List.append_nil] at hRun
  refine (dispatch_block _ _ _).trans ?_
  exact applyBlock_eq_ok hParse
    (Stack.popMany_append args _ s)
    (Block.substitute_selection hShort hPlain is) hRun

/-
  Among eleven arguments `x10` is told from `x1`, and an
  array without columns passes through.
-/
theorem dispatch_selection_eleven :
    let args : List Value :=
      .boolean true :: .vector (.ints [-1, 2]) ::
        List.replicate 8 (.integer 5) ++
          [.matrix (.ints ⟨0, [[], []]⟩)]
    args.length < Nat.pow 10 Decimal.maxDigits ∧
      (∀ v ∈ args, v.IsPlain ∧ ¬ v.IsRowless) ∧
      dispatch 2 "{11|x10 x1}".toList
          (args ++ [.integer 7]) =
        .ok
          [ .vector (.ints [-1, 2]),
            .matrix (.ints ⟨0, [[], []]⟩),
            .integer 7 ] := by
  intro args
  have hCount : args.length < Nat.pow 10 Decimal.maxDigits :=
    Decimal.isShort_natCast_iff.1
      (Decimal.isShort_of_fits (by decide))
  have hArgs : ∀ v ∈ args, v.IsPlain ∧ ¬ v.IsRowless := by
    intro v hv
    have hCases :
        v = .boolean true ∨ v = .vector (.ints [-1, 2]) ∨
          v = .integer 5 ∨
          v = .matrix (.ints ⟨0, [[], []]⟩) := by
      simpa [args] using hv
    rcases hCases with rfl | rfl | rfl | rfl
    · exact ⟨.boolean true, id⟩
    · exact ⟨.vector (by decide), id⟩
    · exact ⟨.integer (Decimal.isShort_of_fits (by decide)),
        id⟩
    · exact ⟨.matrix (by decide) (by decide), by
        simp [Value.IsRowless, NumMatrix.height, Grid.height]⟩
  have hRun :=
    dispatch_selection hCount hArgs
      [⟨10, by decide⟩, ⟨1, by decide⟩] 0 [.integer 7]
  have hSource :
      Block.selection args.length [10, 1] =
        "{11|x10 x1}".toList := by
    decide
  rw [List.map_cons, List.map_cons, List.map_nil, hSource]
    at hRun
  exact ⟨hCount, hArgs, hRun⟩

end Run

end StackCalc
