import StackCalc.Proofs.Alphabet
import StackCalc.Proofs.BlockArguments
import StackCalc.Proofs.Deferral

/-
  What is put into the line of a block.

  The texts of values go into the line first, and the block
  itself in a second pass over all that is there by then.
  The text of a value other than a string is never empty,
  and none of its characters stands in `SELF`, so that it
  neither holds the word nor lets one come about around it.
  The two passes then come to a single one over the line,
  in which every mark is replaced on its own.

  A string may hold the word. It comes out of a block as it
  went in unless it does.

  Main declarations:
    * `Block.Mark`
    * `Block.marks`
    * `Block.expanded`
    * `Block.insertSelf_expanded`
    * `Block.substitute_eq_expanded`
    * `Run.dispatch_string_unchanged_iff`
-/

------------------------------------------------------------
-- Marks
------------------------------------------------------------

namespace StackCalc

namespace Block

/- The word that stands for the block in its line. -/
def selfWord : Text :=
  "SELF".toList

/-
  What a line is made of: placeholders, each with its
  digits, the word for the block, and other characters.
-/
inductive Mark where
  | placeholder (digits : Text)
  | self
  | other (c : Char)
deriving Repr, DecidableEq

/-
  The marks of a line from left to right. The digits of a
  placeholder are all that stand there.
-/
def marks : Text → List Mark
  | [] => []
  | 'S' :: 'E' :: 'L' :: 'F' :: rest => .self :: marks rest
  | c :: rest =>
      if c = 'x' ∧ Numeral.startsWithDigit rest then
        .placeholder (rest.takeWhile Char.isDigit) ::
          marks (rest.dropWhile Char.isDigit)
      else
        .other c :: marks rest
termination_by t => t.length
decreasing_by
  · simp only [List.length_cons]
    omega
  · have hDrop :=
      (List.dropWhile_suffix Char.isDigit
        (l := rest)).length_le
    simp only [List.length_cons]
    omega
  · simp only [List.length_cons]
    omega

/- The text that a mark was found as. -/
def Mark.text : Mark → Text
  | placeholder digits => 'x' :: digits
  | self => selfWord
  | other c => [c]

/- Marks leave nothing of a line out. -/
theorem flatMap_text_marks
    (t : Text) :
    (marks t).flatMap Mark.text = t := by
  fun_induction marks t with
  | case1 =>
      rfl
  | case2 rest ih =>
      rw [List.flatMap_cons, ih]
      rfl
  | case3 c rest _ hPlace ih =>
      rw [List.flatMap_cons, ih, hPlace.1, Mark.text,
        List.cons_append, List.takeWhile_append_dropWhile]
  | case4 c rest _ _ ih =>
      rw [List.flatMap_cons, ih]
      rfl

/-
  What a mark is replaced by: a placeholder by the text of
  its value, and the word for the block by `self`.
-/
def Mark.expansion
    (self : Text)
    (args : List Value) : Mark → Text
  | placeholder digits =>
      (args[Decimal.natValue digits]?.map
        Value.spelling).getD []
  | .self => self
  | other c => [c]

/- A line with all its marks replaced, in one pass. -/
def expanded
    (self : Text)
    (args : List Value)
    (line : Text) : Text :=
  (marks line).flatMap (Mark.expansion self args)

/- Every placeholder stands for one of so many values. -/
def Covered
    (count : Nat)
    (ms : List Mark) : Prop :=
  ∀ digits, .placeholder digits ∈ ms →
    Decimal.natValue digits < count

end Block

end StackCalc

------------------------------------------------------------
-- The First Pass
------------------------------------------------------------

namespace StackCalc

namespace Block

variable
  {source : Text}
  {args : List Value}

theorem Covered.of_cons
    {count : Nat}
    {m : Mark}
    {ms : List Mark}
    (h : Covered count (m :: ms)) :
    Covered count ms :=
  fun digits hMem => h digits (List.mem_cons_of_mem m hMem)

/- What the first pass does with a mark. -/
def Mark.filled
    (source : Text)
    (args : List Value) : Mark → Except Stop Text
  | placeholder digits => Block.placeholder source args digits
  | self => .ok selfWord
  | other c => .ok [c]

/- What it does with marks, one after another. -/
def fillMarks
    (source : Text)
    (args : List Value) :
    List Mark → Except Stop Text
  | [] => .ok []
  | m :: ms =>
      match m.filled source args with
      | .error e => .error e
      | .ok t =>
          match fillMarks source args ms with
          | .error e => .error e
          | .ok more => .ok (t ++ more)

/- A character that starts no placeholder is kept. -/
theorem fill_other
    {c : Char}
    {rest : Text}
    (h : ¬ (c = 'x' ∧ Numeral.startsWithDigit rest)) :
    fill source args (c :: rest) =
      (fill source args rest).map (c :: ·) := by
  rw [fill, if_neg h]
  cases fill source args rest with
  | _ => rfl

/- The first pass goes from mark to mark. -/
theorem fill_eq_fillMarks
    (source : Text)
    (args : List Value)
    (t : Text) :
    fill source args t = fillMarks source args (marks t) := by
  fun_induction marks t with
  | case1 =>
      rw [fill]
      rfl
  | case2 rest ih =>
      rw [fill_other (by simp), fill_other (by simp),
        fill_other (by simp), fill_other (by simp), ih,
        fillMarks]
      cases fillMarks source args (marks rest) with
      | _ => rfl
  | case3 c rest hWord hPlace ih =>
      rw [fill, if_pos hPlace, ih]
      rfl
  | case4 c rest hWord hPlace ih =>
      rw [fill_other hPlace, ih, fillMarks]
      cases fillMarks source args (marks rest) with
      | _ => rfl

/- The complaint about a placeholder without a value. -/
def stray
    (source : Text)
    (args : List Value)
    (digits : Text) : Stop :=
  malformed
    (.strayPlaceholder (Decimal.natValue digits) args.length)
    source

/- A placeholder is filled if there is a value for it. -/
theorem placeholder_of_lt
    {digits : Text}
    (hTexts : ∀ v ∈ args, v.render.isSome = true)
    (hShort : digits.length ≤ Decimal.maxDigits)
    (hLt : Decimal.natValue digits < args.length) :
    placeholder source args digits =
      .ok (Mark.expansion selfWord args
        (.placeholder digits)) := by
  have hMem := List.getElem_mem hLt
  have hText :=
    Value.render_eq_spelling_of_isSome (hTexts _ hMem)
  simp only [placeholder, Decimal.natValue?, if_pos hShort,
    Mark.expansion, List.getElem?_eq_getElem hLt, hText,
    Option.map_some, Option.getD_some]

theorem placeholder_of_le
    {digits : Text}
    (hShort : digits.length ≤ Decimal.maxDigits)
    (hLe : args.length ≤ Decimal.natValue digits) :
    placeholder source args digits =
      .error (stray source args digits) := by
  simp only [placeholder, Decimal.natValue?, if_pos hShort,
    List.getElem?_eq_none hLe, stray]

/-
  All marks are replaced, or there is a placeholder without
  a value, and the complaint is about the first of these.
-/
theorem fillMarks_cases
    {ms : List Mark}
    (hTexts : ∀ v ∈ args, v.render.isSome = true)
    (hShort :
      ∀ digits, .placeholder digits ∈ ms →
        digits.length ≤ Decimal.maxDigits) :
    (Covered args.length ms ∧
      fillMarks source args ms =
        .ok (ms.flatMap (Mark.expansion selfWord args))) ∨
      ∃ digits, .placeholder digits ∈ ms ∧
        args.length ≤ Decimal.natValue digits ∧
        fillMarks source args ms =
          .error (stray source args digits) := by
  induction ms with
  | nil =>
      exact .inl ⟨by simp [Covered], rfl⟩
  | cons m ms ih =>
      have hFirst :
          (Covered args.length [m] ∧
            m.filled source args =
              .ok (m.expansion selfWord args)) ∨
            ∃ digits, m = .placeholder digits ∧
              args.length ≤ Decimal.natValue digits ∧
              m.filled source args =
                .error (stray source args digits) := by
        cases m with
        | placeholder digits =>
            have hDigits := hShort digits List.mem_cons_self
            rcases Nat.lt_or_ge (Decimal.natValue digits)
                args.length with hLt | hLe
            · exact .inl ⟨by simpa [Covered] using hLt,
                placeholder_of_lt hTexts hDigits hLt⟩
            · exact .inr ⟨digits, rfl, hLe,
                placeholder_of_le hDigits hLe⟩
        | _ =>
            exact .inl ⟨by simp [Covered], rfl⟩
      rcases hFirst with
        ⟨hCovered, hFilled⟩ | ⟨digits, rfl, hLe, hFilled⟩
      · rcases ih fun ds h =>
            hShort ds (List.mem_cons_of_mem m h) with
          ⟨hMore, hFill⟩ | ⟨digits, hMem, hLe, hFill⟩
        · refine .inl ⟨?_, by simp [fillMarks, hFilled, hFill]⟩
          intro digits hMem
          rcases List.mem_cons.1 hMem with hHead | hTail
          · exact hCovered digits (by simp [hHead])
          · exact hMore digits hTail
        · exact .inr
            ⟨digits, List.mem_cons_of_mem m hMem, hLe,
              by simp [fillMarks, hFilled, hFill]⟩
      · exact .inr ⟨digits, List.mem_cons_self, hLe,
          by simp [fillMarks, hFilled]⟩

end Block

end StackCalc

------------------------------------------------------------
-- The Second Pass
------------------------------------------------------------

namespace StackCalc

open Text

namespace Block

variable
  {args : List Value}
  (hKinds : ∀ v ∈ args, v.kind ≠ .string)
  (hTexts : ∀ v ∈ args, v.render.isSome = true)

include hKinds hTexts

/- What a placeholder is replaced by is rendered. -/
theorem rendering_expansion
    {digits : Text}
    (self : Text)
    (hLt : Decimal.natValue digits < args.length) :
    Value.Rendering
      (Mark.expansion self args (.placeholder digits)) := by
  have hMem := List.getElem_mem hLt
  have hText :=
    Value.render_eq_spelling_of_isSome (hTexts _ hMem)
  simp only [Mark.expansion, List.getElem?_eq_getElem hLt,
    Option.map_some, Option.getD_some]
  exact Value.rendering_of_kind (hKinds _ hMem) hText

theorem exists_expansion_eq_cons
    {digits : Text}
    (self : Text)
    (hLt : Decimal.natValue digits < args.length) :
    ∃ c rest,
      Mark.expansion self args (.placeholder digits) =
          c :: rest ∧
        Over IsRendered (c :: rest) := by
  have hRendering :=
    rendering_expansion hKinds hTexts self hLt
  rcases List.exists_cons_of_ne_nil hRendering.ne_nil with
    ⟨c, rest, hCons⟩
  exact ⟨c, rest, hCons, hCons ▸ hRendering.over⟩

/-
  After the first pass a character of the word for the
  block stands where the line has it.
-/
theorem eq_cons_of_expanded
    {t more : Text}
    {c : Char}
    (hStart : c ≠ 'S')
    (hForeign : ¬ IsRendered c)
    (hCovered : Covered args.length (marks t))
    (h : expanded selfWord args t = c :: more) :
    ∃ rest, t = c :: rest ∧
      Covered args.length (marks rest) ∧
      expanded selfWord args rest = more := by
  unfold expanded at h
  fun_cases marks t with
  | case1 =>
      simp [marks] at h
  | case2 rest =>
      rw [marks] at h
      exact absurd (List.cons.inj h).1.symm hStart
  | case3 d rest hWord hPlace =>
      rw [marks, if_pos hPlace] at h hCovered
      have hLt := hCovered _ List.mem_cons_self
      rcases exists_expansion_eq_cons hKinds hTexts selfWord hLt
        with ⟨d', rest', hCons, hRendered⟩
      rw [List.flatMap_cons, hCons] at h
      have hHead : d' = c := (List.cons.inj h).1
      exact absurd (hHead ▸ (over_cons_iff.1 hRendered).1)
        hForeign
      all_goals exact hWord
  | case4 d rest hWord hPlace =>
      rw [marks, if_neg hPlace] at h hCovered
      rcases List.cons.inj h with ⟨rfl, hMore⟩
      exact ⟨rest, rfl, hCovered.of_cons, hMore⟩
      all_goals exact hWord

theorem eq_append_of_expanded
    {w t more : Text}
    (hWord : Over (fun c => c ≠ 'S' ∧ ¬ IsRendered c) w)
    (hCovered : Covered args.length (marks t))
    (h : expanded selfWord args t = w ++ more) :
    ∃ rest, t = w ++ rest := by
  induction w generalizing t with
  | nil =>
      exact ⟨t, rfl⟩
  | cons c w ih =>
      rw [over_cons_iff] at hWord
      rcases eq_cons_of_expanded hKinds hTexts hWord.1.1
          hWord.1.2 hCovered h with
        ⟨t', rfl, hRest, hMore⟩
      rcases ih hWord.2 hRest hMore with ⟨rest, rfl⟩
      exact ⟨rest, rfl⟩

/-
  The second pass replaces the word where the line has it
  and nowhere else: a word in what the first pass leaves
  would have to be one of the line.
-/
theorem insertSelf_expanded
    {t : Text}
    (self : Text)
    (hCovered : Covered args.length (marks t)) :
    insertSelf self (expanded selfWord args t) =
      expanded self args t := by
  have hKeep :
      ∀ {u more : Text}, Covered args.length (marks u) →
        expanded selfWord args u = "ELF".toList ++ more →
        ∃ rest, u = "ELF".toList ++ rest :=
    eq_append_of_expanded hKinds hTexts (by decide)
  unfold expanded at hKeep ⊢
  fun_induction marks t with
  | case1 =>
      rfl
  | case2 rest ih =>
      rw [List.flatMap_cons, List.flatMap_cons,
        ← ih hCovered.of_cons]
      rfl
  | case3 c rest hWord hPlace ih =>
      have hLt := hCovered _ List.mem_cons_self
      rcases exists_expansion_eq_cons hKinds hTexts self hLt
        with ⟨d, more, hCons, hRendered⟩
      have hAbsent : 'S' ∉ d :: more := by
        intro hMem
        exact absurd (hRendered 'S' hMem) (by decide)
      have hSame :
          Mark.expansion selfWord args
              (.placeholder (rest.takeWhile Char.isDigit)) =
            d :: more :=
        hCons
      rw [List.flatMap_cons, List.flatMap_cons, hSame, hCons,
        insertSelf_append self _ hAbsent, ih hCovered.of_cons]
  | case4 c rest hWord hPlace ih =>
      -- A kept `S` starts no word: what would complete it
      -- stands in the line as well, which was no word.
      have hKept :
          ∀ more, c = 'S' →
            (marks rest).flatMap
                (Mark.expansion selfWord args) ≠
              'E' :: 'L' :: 'F' :: more := by
        intro more hc hMore
        rcases hKeep hCovered.of_cons hMore with ⟨rest', hRest⟩
        exact hWord rest' hc hRest
      exact (insertSelf.eq_3 self c _ hKept).trans
        (congrArg (c :: ·) (ih hCovered.of_cons))

end Block

end StackCalc

------------------------------------------------------------
-- Substitution
------------------------------------------------------------

namespace StackCalc

namespace Block

/- A block keeps the text that it was read from. -/
theorem source_of_parse
    {source : Text}
    {b : Block}
    (h : parse source = .ok b) :
    b.source = source := by
  unfold parse at h
  grind

/-
  Putting values other than strings into the line of a
  block replaces all its marks, or complains of a
  placeholder without a value.
-/
theorem substitute_cases
    {b : Block}
    {args : List Value}
    (hKinds : ∀ v ∈ args, v.kind ≠ .string)
    (hTexts : ∀ v ∈ args, v.render.isSome = true)
    (hShort :
      ∀ digits, .placeholder digits ∈ marks b.body →
        digits.length ≤ Decimal.maxDigits) :
    (Covered args.length (marks b.body) ∧
      b.substitute args =
        .ok (expanded ('\'' :: b.source) args b.body)) ∨
      ∃ digits, .placeholder digits ∈ marks b.body ∧
        args.length ≤ Decimal.natValue digits ∧
        b.substitute args =
          .error (stray b.source args digits) := by
  rw [substitute, fill_eq_fillMarks]
  rcases fillMarks_cases hTexts hShort with
    ⟨hCovered, hFill⟩ | ⟨digits, hMem, hLe, hFill⟩
  · refine .inl ⟨hCovered, ?_⟩
    rw [hFill]
    exact congrArg Except.ok
      (insertSelf_expanded hKinds hTexts _ hCovered)
  · refine .inr ⟨digits, hMem, hLe, ?_⟩
    rw [hFill]
    rfl

/-
  The line of a block with values other than strings put
  into it is that line with all its marks replaced at once:
  what is put in is not looked at again, and what is no
  placeholder and no word for the block stays. It fails only
  for a placeholder without a value, and then it complains
  of the block.
-/
theorem substitute_eq_expanded
    {source : Text}
    {b : Block}
    {args : List Value}
    (hParse : parse source = .ok b)
    (hKinds : ∀ v ∈ args, v.kind ≠ .string)
    (hTexts : ∀ v ∈ args, v.render.isSome = true)
    (hShort :
      ∀ digits, .placeholder digits ∈ marks b.body →
        digits.length ≤ Decimal.maxDigits) :
    (marks b.body).flatMap Mark.text = b.body ∧
      ((∃ e, b.substitute args = .error e) ↔
        ∃ digits, .placeholder digits ∈ marks b.body ∧
          args.length ≤ Decimal.natValue digits) ∧
      (∀ e, b.substitute args = .error e →
        ∃ i, args.length ≤ i ∧
          e = malformed (.strayPlaceholder i args.length)
            source) ∧
      ((∀ digits, .placeholder digits ∈ marks b.body →
          Decimal.natValue digits < args.length) →
        b.substitute args =
          .ok (expanded ('\'' :: source) args b.body)) := by
  refine ⟨flatMap_text_marks b.body, ?_⟩
  rw [← source_of_parse hParse]
  rcases substitute_cases hKinds hTexts hShort with
    ⟨hCovered, hLine⟩ | ⟨digits, hMem, hLe, hLine⟩
  · rw [hLine]
    refine ⟨?_, by simp, fun _ => rfl⟩
    refine iff_of_false (by simp) ?_
    rintro ⟨digits, hMem, hLe⟩
    have hLt := hCovered digits hMem
    omega
  · rw [hLine]
    refine ⟨iff_of_true ⟨_, rfl⟩ ⟨digits, hMem, hLe⟩, ?_, ?_⟩
    · intro e he
      exact ⟨_, hLe, (Except.error.inj he).symm⟩
    · intro hCovered
      have hLt := hCovered digits hMem
      omega

/-
  A value between the halves of the word does not join
  them, and the digits of a placeholder end at a letter.
-/
theorem substitute_eq_expanded_halves :
    let source := "{2|SEx0LF x01SELF}".toList
    let args : List Value :=
      [.boolean true, .vector (.ints [7])]
    ∃ b, parse source = .ok b ∧
      (∀ v ∈ args, v.kind ≠ .string) ∧
      (∀ v ∈ args, v.render.isSome = true) ∧
      (∀ digits, .placeholder digits ∈ marks b.body →
        digits.length ≤ Decimal.maxDigits) ∧
      b.substitute args =
        .ok "SEtrueLF [7]'{2|SEx0LF x01SELF}".toList := by
  intro source args
  have hParse :
      parse source =
        .ok ⟨source, 2, "SEx0LF x01SELF".toList⟩ :=
    rfl
  have hKinds : ∀ v ∈ args, v.kind ≠ .string := by
    decide
  have hTexts : ∀ v ∈ args, v.render.isSome = true := by
    decide
  have hMarks :
      marks "SEx0LF x01SELF".toList =
        [ .other 'S', .other 'E', .placeholder ['0'],
          .other 'L', .other 'F', .other ' ',
          .placeholder ['0', '1'], .self ] := by
    simp [marks, Numeral.startsWithDigit]
  have hShort :
      ∀ digits,
        .placeholder digits ∈ marks "SEx0LF x01SELF".toList →
          digits.length ≤ Decimal.maxDigits := by
    rw [hMarks]
    simp [Decimal.maxDigits]
  have hCovered :
      ∀ digits,
        .placeholder digits ∈ marks "SEx0LF x01SELF".toList →
          Decimal.natValue digits < args.length := by
    rw [hMarks]
    simp [args, Decimal.natValue, Nat.ofDigitChars]
  have hLine :=
    (substitute_eq_expanded hParse hKinds hTexts
      hShort).2.2.2 hCovered
  rw [expanded, hMarks] at hLine
  exact ⟨_, hParse, hKinds, hTexts, hShort, hLine⟩

end Block

end StackCalc

------------------------------------------------------------
-- String Arguments
------------------------------------------------------------

namespace StackCalc

namespace Nesting

/- Inside of a string no space is free. -/
theorem keepsWhole_of_quoted
    {n : Nesting}
    {t : Text}
    (hn : n.quoted = true)
    (ht : '"' ∉ t) :
    n.KeepsWhole t := by
  induction t generalizing n with
  | nil =>
      trivial
  | cons c t ih =>
      rw [List.mem_cons, not_or] at ht
      have hStill : (n.after c).quoted = true := by
        grind [after]
      refine ⟨?_, ih hStill ht.2⟩
      rintro ⟨-, hOutside⟩
      simp [isOutside, hn] at hOutside

end Nesting

namespace Token

/- A text in quotes is one token, whatever it holds. -/
theorem keepsWhole_inQuotes
    {t : Text}
    (h : '"' ∉ t) :
    Nesting.start.KeepsWhole (Text.inQuotes t) := by
  refine ⟨by simp, Nesting.keepsWhole_append.2 ⟨?_, ?_⟩⟩
  · exact Nesting.keepsWhole_of_quoted rfl h
  · exact ⟨by simp, trivial⟩

theorem split_inQuotes
    {t : Text}
    (h : '"' ∉ t) :
    split (Text.inQuotes t) = [Text.inQuotes t] :=
  split_of_keepsWhole (keepsWhole_inQuotes h)
    (List.cons_ne_nil _ _)

end Token

/- A word does not reach over a character that it lacks. -/
theorem Text.exists_eq_append
    {w t rest more : Text}
    {c : Char}
    (hc : c ∉ w)
    (h : t ++ c :: rest = w ++ more) :
    ∃ t', t = w ++ t' := by
  have hFront : w <+: t ++ c :: rest := ⟨more, h.symm⟩
  have hBack : t ++ [c] <+: t ++ c :: rest := ⟨rest, by simp⟩
  rcases List.prefix_or_prefix_of_prefix hFront hBack with
    hWord | hLonger
  · rcases List.prefix_concat_iff.1 hWord with hAll | ⟨t', ht'⟩
    · exact absurd (hAll ▸ List.mem_concat_self) hc
    · exact ⟨t', ht'.symm⟩
  · exact absurd (hLonger.subset List.mem_concat_self) hc

namespace Block

/- The word for the block does not reach over a quote. -/
theorem insertSelf_append_quote
    (self t : Text) :
    insertSelf self (t ++ ['"']) =
      insertSelf self t ++ ['"'] := by
  fun_induction insertSelf self t with
  | case1 =>
      exact insertSelf_of_not_mem self (by decide)
  | case2 rest ih =>
      rw [List.append_assoc, ← ih]
      rfl
  | case3 c rest hWord ih =>
      rw [List.cons_append, List.cons_append, ← ih]
      apply insertSelf.eq_3
      intro more hc hMore
      rcases Text.exists_eq_append (w := "ELF".toList)
          (by decide) hMore with ⟨rest', hRest⟩
      exact hWord rest' hc hRest

theorem insertSelf_inQuotes
    (self t : Text) :
    insertSelf self (Text.inQuotes t) =
      Text.inQuotes (insertSelf self t) := by
  rw [Text.inQuotes, insertSelf_cons self _ (by decide),
    insertSelf_append_quote, Text.inQuotes]

/- A text without the word is kept. -/
theorem insertSelf_of_not_infix
    {self t : Text}
    (h : ¬ selfWord <:+: t) :
    insertSelf self t = t := by
  fun_induction insertSelf self t with
  | case1 =>
      rfl
  | case2 rest ih =>
      exact absurd ⟨[], rest, rfl⟩ h
  | case3 c rest hWord ih =>
      rw [ih fun hRest => h (hRest.trans
        (List.suffix_cons c rest).isInfix)]

/- A self longer than the word makes no text shorter. -/
theorem length_le_insertSelf
    {self : Text}
    (hSelf : selfWord.length < self.length)
    (t : Text) :
    t.length ≤ (insertSelf self t).length := by
  have hLong : 4 < self.length := hSelf
  fun_induction insertSelf self t with
  | case1 =>
      exact Nat.le_refl _
  | case2 rest ih =>
      simp only [List.length_cons, List.length_append]
      omega
  | case3 c rest hWord ih =>
      simp only [List.length_cons]
      omega

/- It makes a text with the word in it longer. -/
theorem length_lt_insertSelf
    {self t : Text}
    (hSelf : selfWord.length < self.length)
    (h : selfWord <:+: t) :
    t.length < (insertSelf self t).length := by
  have hLong : 4 < self.length := hSelf
  fun_induction insertSelf self t with
  | case1 =>
      simp [selfWord] at h
  | case2 rest ih =>
      have hRest := length_le_insertSelf hSelf rest
      simp only [List.length_cons, List.length_append]
      omega
  | case3 c rest hWord ih =>
      rcases List.infix_cons_iff.1 h with ⟨more, hMore⟩ | hRest
      · have hFront := List.cons.inj hMore
        exact absurd hFront.2.symm
          (hWord more hFront.1.symm)
      · simp only [List.length_cons]
        have hLonger := ih hRest
        omega

/- So it keeps just the texts without the word. -/
theorem insertSelf_eq_self_iff
    {self t : Text}
    (hSelf : selfWord.length < self.length) :
    insertSelf self t = t ↔ ¬ selfWord <:+: t := by
  refine ⟨?_, insertSelf_of_not_infix⟩
  intro hKept hWord
  have hLonger := length_lt_insertSelf hSelf hWord
  rw [hKept] at hLonger
  exact absurd hLonger (Nat.lt_irrefl _)

end Block

namespace Run

open Text Block

/-
  A string that is passed to the block `{1|x0}` comes back
  with the block in place of every `SELF` in it.
-/
theorem dispatch_string_eq
    {c : Text}
    (hc : '"' ∉ c)
    (depth : Nat)
    (s : Stack) :
    dispatch (depth + 2) "{1|x0}".toList
        (.string (inQuotes c) :: s) =
      .ok (.string (inQuotes
        (insertSelf "'{1|x0}".toList c)) :: s) := by
  have hSelf : '"' ∉ insertSelf "'{1|x0}".toList c := by
    have hOver : Over (· ≠ '"') c := by
      rintro d hd rfl
      exact hc hd
    intro hMem
    exact over_insertSelf (by decide) hOver '"' hMem rfl
  have hArgs :
      Stack.popMany (1 : Nat) "{1|x0}".toList
          (.string (inQuotes c) :: s) =
        .ok ([.string (inQuotes c)], s) :=
    Stack.popMany_append [.string (inQuotes c)] _ s
  have hFill :
      fill "{1|x0}".toList [.string (inQuotes c)]
          "x0".toList =
        .ok (inQuotes c) := by
    have hNil :
        fill "{1|x0}".toList [.string (inQuotes c)] [] =
          .ok [] := by
      rw [fill]
    have hFirst :=
      fill_placeholder (Decimal.isShort_of_fits (by decide))
        (rfl : [Value.string (inQuotes c)][0]? = _) rfl rfl hNil
    rwa [List.append_nil, List.append_nil] at hFirst
  have hLine :
      substitute ⟨"{1|x0}".toList, 1, "x0".toList⟩
          [.string (inQuotes c)] =
        .ok (inQuotes (insertSelf "'{1|x0}".toList c)) := by
    rw [substitute, hFill, ← insertSelf_inQuotes]
    rfl
  have hRun :
      tokens (dispatch (depth + 1))
          (Token.split
            (inQuotes (insertSelf "'{1|x0}".toList c))) [] =
        .ok [.string
          (inQuotes (insertSelf "'{1|x0}".toList c))] := by
    rcases Value.isWritable_string
        (isQuoted_inQuotes (insertSelf "'{1|x0}".toList c))
      with ⟨t, ht, hPush⟩
    obtain rfl : _ = t := Option.some.inj ht
    rw [Token.split_inQuotes hSelf, tokens_singleton, hPush]
  exact (dispatch_block _ _ _).trans
    (applyBlock_eq_ok rfl hArgs hLine hRun)

/-
  A string that is passed to the block `{1|x0}` always comes
  back as a string, and as the one that it was if and only
  if it does not hold the word `SELF`.
-/
theorem dispatch_string_unchanged_iff
    {c : Text}
    (hc : '"' ∉ c)
    (depth : Nat)
    (s : Stack) :
    dispatch (depth + 2) "{1|x0}".toList
          (.string (inQuotes c) :: s) =
        .ok (.string (inQuotes
          (insertSelf "'{1|x0}".toList c)) :: s) ∧
      (dispatch (depth + 2) "{1|x0}".toList
            (.string (inQuotes c) :: s) =
          .ok (.string (inQuotes c) :: s) ↔
        ¬ "SELF".toList <:+: c) := by
  have hRun := dispatch_string_eq hc depth s
  refine ⟨hRun, ?_⟩
  have hLong :
      selfWord.length < "'{1|x0}".toList.length := by
    decide
  rw [hRun, ← selfWord, ← insertSelf_eq_self_iff hLong]
  constructor
  · intro hSame
    simpa [inQuotes] using hSame
  · intro hSame
    rw [hSame]

/- Brackets, spaces and a placeholder pass unchanged. -/
theorem dispatch_string_unchanged_brackets :
    '"' ∉ "[ x0 \x7d SEL F".toList ∧
      dispatch 2 "{1|x0}".toList
          [.string "\"[ x0 \x7d SEL F\"".toList, .integer 1] =
        .ok
          [ .string "\"[ x0 \x7d SEL F\"".toList,
            .integer 1 ] := by
  have hPlain : '"' ∉ "[ x0 \x7d SEL F".toList := by
    decide
  have hIff :=
    (dispatch_string_unchanged_iff hPlain 0 [.integer 1]).2
  exact ⟨hPlain, hIff.2 (by decide)⟩

/- The word itself does not. -/
theorem dispatch_string_self :
    '"' ∉ "SELF".toList ∧
      dispatch 2 "{1|x0}".toList
          [.string "\"SELF\"".toList] =
        .ok [.string "\"'{1|x0}\"".toList] ∧
      dispatch 2 "{1|x0}".toList
          [.string "\"SELF\"".toList] ≠
        .ok [.string "\"SELF\"".toList] := by
  have hPlain : '"' ∉ "SELF".toList := by
    decide
  have hRun := dispatch_string_eq hPlain 0 []
  refine ⟨hPlain, hRun, ?_⟩
  intro hSame
  have hText := hRun.symm.trans hSame
  simp only [Except.ok.injEq, List.cons.injEq,
    Value.string.injEq, and_true] at hText
  exact absurd hText (by decide)

end Run

end StackCalc
