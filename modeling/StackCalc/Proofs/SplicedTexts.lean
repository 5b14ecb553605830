import StackCalc.Proofs.Substitution

/-
  Texts put into a line.

  Brackets are counted wherever they stand, in a string as
  well. A string therefore leaves what stands after it
  alone just if its brackets are balanced, in whatever
  order it has them.

  The line of a block has texts put for its marks. None of
  them opens anything that it does not close, so the tokens
  around a mark are those of the text there. The block that
  is put for `SELF` is a token of its own. No line comes of
  a placeholder that has more digits than can be read.

  Main declarations:
    * `Text.isBalanced_iff`
    * `Token.splitAfter`
    * `Token.split_append_iff_isBalanced`
    * `Token.split_string_append_iff`
    * `Value.Rendering.isCompact`
    * `Block.marks_append_space`
    * `Block.isBalanced_expanded`
    * `Block.substitute_of_long`
    * `Block.split_substitute_self`
-/

------------------------------------------------------------
-- Balanced Texts
------------------------------------------------------------

namespace StackCalc

namespace Text

/- A balanced text is one that changes no nesting. -/
theorem isBalanced_iff
    {t : Text} :
    t.IsBalanced ↔ Nesting.start.afterAll t = .start := by
  constructor
  · intro h
    exact Nesting.afterAll_of_isBalanced h .start
  · intro h
    have hSquare := Nesting.square_afterAll .start t
    have hCurly := Nesting.curly_afterAll .start t
    have hQuoted := Nesting.quoted_afterAll .start t
    rw [h] at hSquare hCurly hQuoted
    simp only [Nesting.start, Bool.false_xor]
      at hSquare hCurly hQuoted
    have hQuotes : t.count '"' % 2 ≠ 1 :=
      beq_eq_false_iff_ne.1 hQuoted.symm
    exact ⟨by omega, by omega, by omega⟩

theorem IsBalanced.append
    {s t : Text}
    (hs : s.IsBalanced)
    (ht : t.IsBalanced) :
    IsBalanced (s ++ t) := by
  rw [isBalanced_iff] at hs ht ⊢
  rw [Nesting.afterAll_append, hs, ht]

/- Braces around a balanced text balance each other. -/
theorem IsBalanced.braced
    {t : Text}
    (h : t.IsBalanced) :
    IsBalanced ('{' :: (t ++ ['}'])) := by
  constructor
  · simpa [List.count_cons] using h.square
  · simpa [List.count_cons] using h.curly
  · simpa [List.count_cons] using h.quotes

end Text

/- What closes all that it opens is balanced. -/
theorem Token.IsCompact.isBalanced
    {t : Text}
    (h : IsCompact t) :
    t.IsBalanced :=
  Text.isBalanced_iff.2 (h.closed .start)

end StackCalc

------------------------------------------------------------
-- A Token And What Follows It
------------------------------------------------------------

namespace StackCalc

/- Inside of braces no space is free. -/
theorem Nesting.keepsWhole_of_curly
    {n : Nesting}
    {t : Text}
    (hn : 0 < n.curly)
    (ht : '}' ∉ t) :
    n.KeepsWhole t := by
  induction t generalizing n with
  | nil =>
      trivial
  | cons c t ih =>
      rw [List.mem_cons, not_or] at ht
      have hStill : 0 < (n.after c).curly := by
        grind [after]
      refine ⟨?_, ih hStill ht.2⟩
      rintro ⟨-, hOutside⟩
      have hInside : ¬ n.curly ≤ 0 := by omega
      simp [isOutside, hInside] at hOutside

/-
  Only at the start of a line is nothing open, and yet
  something is after any opening bracket.
-/
theorem Nesting.eq_start_of_isOutside
    {n : Nesting}
    (h : n.isOutside = true)
    (hSquare : (n.after '[').isOutside = false)
    (hCurly : (n.after '{').isOutside = false) :
    n = .start := by
  rcases n with ⟨square, curly, quoted⟩
  have hNone : square ≤ 0 ∧ curly ≤ 0 ∧ quoted = false := by
    simpa [isOutside, and_assoc] using h
  rcases hNone with ⟨hFew, hFewer, rfl⟩
  have hSquareZero : square = 0 := by
    have hOpen : ¬ square + 1 ≤ 0 := by
      intro hLess
      simp [isOutside, after, hLess, hFewer] at hSquare
    omega
  have hCurlyZero : curly = 0 := by
    have hOpen : ¬ curly + 1 ≤ 0 := by
      intro hLess
      simp [isOutside, after, hLess, hFew] at hCurly
    omega
  rw [hSquareZero, hCurlyZero, start]

namespace Token

/- The tokens of a text that stands after some nesting. -/
def splitAfter
    (n : Nesting)
    (t : Text) : List Text :=
  ((pieces n t).1 :: (pieces n t).2).filter
    fun p => !p.isEmpty

/-
  At a free space a line is split in two, and the second
  part starts from the nesting that the first one leaves.
-/
theorem split_append_of_isOutside
    {t : Text}
    (h : (Nesting.start.afterAll t).isOutside = true)
    (rest : Text) :
    split (t ++ ' ' :: rest) =
      split t ++
        splitAfter (Nesting.start.afterAll t) rest := by
  rw [split_eq_filter, split_eq_filter, splitAfter,
    pieces_append_space h, ← List.cons_append,
    List.filter_append]

/- What stands in braces is one token. -/
theorem keepsWhole_braced
    {t : Text}
    (h : '}' ∉ t) :
    Nesting.start.KeepsWhole ('{' :: (t ++ ['}'])) := by
  refine ⟨by simp, Nesting.keepsWhole_append.2 ⟨?_, ?_⟩⟩
  · exact Nesting.keepsWhole_of_curly (by decide) h
  · exact ⟨by simp, trivial⟩

/- A space behind a character shows what is open there. -/
theorem splitAfter_pair_iff
    {n : Nesting}
    {c : Char}
    (hc : c ≠ ' ') :
    splitAfter n [c, ' '] = [[c, ' ']] ↔
      (n.after c).isOutside = false := by
  cases hOutside : (n.after c).isOutside with
  | true =>
      simp [splitAfter, pieces, hc, hOutside]
  | false =>
      simp [splitAfter, pieces, hc, hOutside]

/-
  A text that is a token by itself stays one in front of a
  space, and leaves alone whatever stands after the space,
  if and only if it is balanced.
-/
theorem split_append_iff_isBalanced
    {t : Text}
    (hWhole : Nesting.start.KeepsWhole t)
    (hNe : t ≠ []) :
    (∀ rest, split (t ++ ' ' :: rest) = t :: split rest) ↔
      t.IsBalanced := by
  have hAlone := split_of_keepsWhole hWhole hNe
  constructor
  · intro h
    -- With nothing after the space, the space is dropped.
    have hOutside :
        (Nesting.start.afterAll t).isOutside = true := by
      apply Bool.eq_true_of_not_eq_false
      intro hInside
      have hSpace :
          Nesting.start.KeepsWhole (t ++ [' ']) :=
        Nesting.keepsWhole_append.2
          ⟨hWhole, by simp [hInside], trivial⟩
      have hOnly := split_of_keepsWhole hSpace (by simp)
      rw [h []] at hOnly
      simpa using (List.cons.inj hOnly).1
    have hRest :
        ∀ rest,
          splitAfter (Nesting.start.afterAll t) rest =
            split rest := by
      intro rest
      have hLine := h rest
      rw [split_append_of_isOutside hOutside, hAlone]
        at hLine
      exact List.append_cancel_left hLine
    -- An opening bracket shows one that was closed before
    -- and not opened.
    have hSquare :=
      (splitAfter_pair_iff (by decide)).1 (hRest ['[', ' '])
    have hCurly :=
      (splitAfter_pair_iff (by decide)).1 (hRest ['{', ' '])
    exact Text.isBalanced_iff.2
      (Nesting.eq_start_of_isOutside hOutside hSquare hCurly)
  · intro h rest
    rw [split_append_space h, hAlone]
    rfl

end Token

end StackCalc

------------------------------------------------------------
-- Strings
------------------------------------------------------------

namespace StackCalc

open Text

namespace Text

/- The quotes around a text balance each other. -/
theorem isBalanced_inQuotes_iff
    {c : Text}
    (hc : '"' ∉ c) :
    IsBalanced (inQuotes c) ↔
      c.count '[' = c.count ']' ∧
        c.count '{' = c.count '}' := by
  have hNone : c.count '"' = 0 := List.count_eq_zero.2 hc
  constructor
  · intro h
    have hSquare := h.square
    have hCurly := h.curly
    simp [inQuotes] at hSquare hCurly
    exact ⟨hSquare, hCurly⟩
  · rintro ⟨hSquare, hCurly⟩
    constructor
    · simpa [inQuotes, List.count_cons] using hSquare
    · simpa [inQuotes, List.count_cons] using hCurly
    · simp [inQuotes, hNone]

end Text

namespace Token

/-
  A string in front of a line is its first token and does
  not disturb the others, whatever they are, if and only if
  it has as many opening as closing brackets of either
  kind. What is in quotes is counted as if it were not.
-/
theorem split_string_append_iff
    {c : Text}
    (hc : '"' ∉ c) :
    (∀ rest,
        split (inQuotes c ++ ' ' :: rest) =
          inQuotes c :: split rest) ↔
      c.count '[' = c.count ']' ∧
        c.count '{' = c.count '}' := by
  rw [← isBalanced_inQuotes_iff hc]
  exact split_append_iff_isBalanced (keepsWhole_inQuotes hc)
    (List.cons_ne_nil _ _)

/- Brackets the wrong way round are balanced as well. -/
theorem split_string_append_wrongWay :
    '"' ∉ "] \x7d[\x7b".toList ∧
      ∀ rest,
        split ("\"] \x7d[\x7b\"".toList ++ ' ' :: rest) =
          "\"] \x7d[\x7b\"".toList :: split rest := by
  have hPlain : '"' ∉ "] \x7d[\x7b".toList := by
    decide
  exact ⟨hPlain,
    (split_string_append_iff hPlain).2 (by decide)⟩

/- An opening bracket makes the rest part of the string. -/
theorem split_string_append_open :
    '"' ∉ "[".toList ∧
      split "\"[\" 1".toList = ["\"[\" 1".toList] ∧
      split "\"[\" 1".toList ≠
        "\"[\"".toList :: split "1".toList := by
  decide

end Token

end StackCalc

------------------------------------------------------------
-- Values
------------------------------------------------------------

namespace StackCalc

open Text

namespace Token

/- No figure nests or separates. -/
theorem isCompact_of_figures
    {t : Text}
    (h : Over IsFigure t) :
    IsCompact t := by
  have hListed :
      Over (isInert · = true) "+-.eInfinityNaN".toList := by
    decide
  apply isCompact_of_isInert
  intro c hc
  rcases Bool.or_eq_true_iff.1 (h c hc) with hDigit | hMem
  · exact isInert_of_isDigit hDigit
  · exact hListed c (List.contains_iff_mem.1 hMem)

end Token

/- A value other than a string is written as one token. -/
theorem Value.Rendering.isCompact
    {t : Text}
    (h : Rendering t) :
    Token.IsCompact t := by
  induction h with
  | number hFigures hNe =>
      exact Token.isCompact_of_figures hFigures
  | boolean b =>
      exact isCompact_spelling (.boolean b)
  | array h ih =>
      exact Token.isCompact_bracketed ih

end StackCalc

------------------------------------------------------------
-- Lines Of Blocks
------------------------------------------------------------

namespace StackCalc

open Text

namespace Block

theorem startsWithDigit_append_space
    (t rest : Text) :
    Numeral.startsWithDigit (t ++ ' ' :: rest) =
      Numeral.startsWithDigit t := by
  cases t with
  | nil =>
      rfl
  | cons c t =>
      rfl

/- Digits end at a space. -/
theorem digits_append_space
    (t rest : Text) :
    (t ++ ' ' :: rest).takeWhile Char.isDigit =
        t.takeWhile Char.isDigit ∧
      (t ++ ' ' :: rest).dropWhile Char.isDigit =
        t.dropWhile Char.isDigit ++ ' ' :: rest := by
  have hSpace : ' '.isDigit = false := by
    decide
  induction t with
  | nil =>
      simp [hSpace]
  | cons c t ih =>
      by_cases hDigit : c.isDigit = true
      · simp [hDigit, ih]
      · simp [hDigit]

/- No mark reaches over a space. -/
theorem marks_append_space
    (t rest : Text) :
    marks (t ++ ' ' :: rest) =
      marks t ++ .other ' ' :: marks rest := by
  fun_induction marks t with
  | case1 =>
      simp [marks]
  | case2 t ih =>
      simp only [List.cons_append, marks, ih]
  | case3 c t hWord hPlace ih =>
      rcases digits_append_space t rest with ⟨hTake, hDrop⟩
      have hStill :
          c = 'x' ∧
            Numeral.startsWithDigit (t ++ ' ' :: rest) := by
        rw [startsWithDigit_append_space]
        exact hPlace
      rw [List.cons_append, marks, if_pos hStill, hTake,
        hDrop, ih, List.cons_append]
      simp [hPlace.1]
  | case4 c t hWord hPlace ih =>
      have hStill :
          ¬ (c = 'x' ∧
            Numeral.startsWithDigit (t ++ ' ' :: rest)) := by
        rw [startsWithDigit_append_space]
        exact hPlace
      rw [List.cons_append, marks, if_neg hStill, ih,
        List.cons_append]
      intro more hc hMore
      rcases exists_eq_append (w := "ELF".toList)
          (by decide) hMore with ⟨t', ht⟩
      exact hWord t' hc ht

/- The digits of a placeholder are digits. -/
theorem isDigit_of_mem_marks
    {t digits : Text}
    {c : Char}
    (h : .placeholder digits ∈ marks t)
    (hc : c ∈ digits) :
    c.isDigit = true := by
  fun_induction marks t with
  | case1 =>
      simp at h
  | case2 t ih =>
      simp only [List.mem_cons, reduceCtorEq, false_or] at h
      exact ih h
  | case3 d t hWord hPlace ih =>
      rcases List.mem_cons.1 h with hHead | hTail
      · rw [Mark.placeholder.inj hHead] at hc
        exact List.all_eq_true.1 List.all_takeWhile c hc
      · exact ih hTail
  | case4 d t hWord hPlace ih =>
      simp only [List.mem_cons, reduceCtorEq, false_or] at h
      exact ih h

end Block

/- Texts that nest alike one by one do so together. -/
theorem Nesting.afterAll_flatMap
    {α : Type}
    {f g : α → Text}
    {as : List α}
    (h : ∀ a ∈ as, ∀ n : Nesting,
      n.afterAll (f a) = n.afterAll (g a))
    (n : Nesting) :
    n.afterAll (as.flatMap f) =
      n.afterAll (as.flatMap g) := by
  induction as generalizing n with
  | nil =>
      rfl
  | cons a as ih =>
      rw [List.flatMap_cons, List.flatMap_cons,
        afterAll_append, afterAll_append,
        h a List.mem_cons_self]
      exact ih (fun b hb => h b (List.mem_cons_of_mem a hb)) _

namespace Block

variable
  {self : Text}
  {args : List Value}
  (hSelf : self.IsBalanced)
  (hKinds : ∀ v ∈ args, v.kind ≠ .string)
  (hTexts : ∀ v ∈ args, v.render.isSome = true)

include hSelf hKinds hTexts

/- What is put for a mark nests as the mark does. -/
theorem afterAll_expansion
    {t : Text}
    {m : Mark}
    (hCovered : Covered args.length (marks t))
    (hMem : m ∈ marks t)
    (n : Nesting) :
    n.afterAll (m.expansion self args) =
      n.afterAll m.text := by
  cases m with
  | placeholder digits =>
      have hValue :=
        (rendering_expansion hKinds hTexts self
          (hCovered digits hMem)).isCompact
      have hMark :
          Token.IsCompact (Mark.placeholder digits).text := by
        apply Token.isCompact_of_isInert
        intro c hc
        rcases List.mem_cons.1 hc with rfl | hDigit
        · rfl
        · exact Token.isInert_of_isDigit
            (isDigit_of_mem_marks hMem hDigit)
      rw [hValue.closed, hMark.closed]
  | self =>
      exact Nesting.afterAll_of_isBalanced hSelf n
  | other c =>
      rfl

/- A balanced text stays so when its marks are replaced. -/
theorem isBalanced_expanded
    {t : Text}
    (hCovered : Covered args.length (marks t))
    (ht : t.IsBalanced) :
    IsBalanced (expanded self args t) := by
  rw [isBalanced_iff] at ht ⊢
  have hAlike :=
    Nesting.afterAll_flatMap
      (fun m hm =>
        afterAll_expansion hSelf hKinds hTexts hCovered hm)
      .start
  rw [flatMap_text_marks, ht] at hAlike
  exact hAlike

end Block

end StackCalc

------------------------------------------------------------
-- Too Many Digits
------------------------------------------------------------

namespace StackCalc

theorem Decimal.natValue_zeros
    (n : Nat) :
    natValue (List.replicate n '0') = 0 := by
  unfold natValue
  induction n with
  | zero =>
      rfl
  | succ n ih =>
      rw [List.replicate_succ, Nat.ofDigitChars_cons]
      exact ih

namespace Block

/- Digits after an `x` are a placeholder as a whole. -/
theorem marks_placeholder
    {ds : Text}
    (hNe : ds ≠ [])
    (hDigits : ∀ c ∈ ds, c.isDigit = true) :
    marks ('x' :: ds) = [.placeholder ds] := by
  have hStart : Numeral.startsWithDigit ds = true := by
    rcases List.exists_cons_of_ne_nil hNe with ⟨d, ds, rfl⟩
    exact hDigits d List.mem_cons_self
  have hTake : (ds ++ []).takeWhile Char.isDigit = ds ++ [] :=
    List.takeWhile_append_of_pos hDigits
  have hDrop : (ds ++ []).dropWhile Char.isDigit = [] :=
    List.dropWhile_append_of_pos hDigits
  rw [List.append_nil] at hTake hDrop
  rw [marks, if_pos ⟨rfl, hStart⟩, hTake, hDrop, marks]
  simp

/-
  A placeholder of too many digits is not filled, even if
  there is a value for it.
-/
theorem placeholder_of_long
    {source digits : Text}
    {args : List Value}
    (h : Decimal.maxDigits < digits.length) :
    placeholder source args digits =
      .error .tooManyDigits := by
  rw [placeholder, Decimal.natValue?, if_neg (by omega)]

/- Nor is then any line with it. -/
theorem fillMarks_of_long
    {source digits : Text}
    {args : List Value}
    {ms : List Mark}
    (hTexts : ∀ v ∈ args, v.render.isSome = true)
    (hCovered : Covered args.length ms)
    (hMem : .placeholder digits ∈ ms)
    (hLong : Decimal.maxDigits < digits.length) :
    fillMarks source args ms = .error .tooManyDigits := by
  induction ms with
  | nil =>
      simp at hMem
  | cons m ms ih =>
      -- The first mark is filled or stops the pass at once.
      have hRest :
          ∀ t, m.filled source args = .ok t →
            .placeholder digits ∈ ms := by
        intro t ht
        rcases List.mem_cons.1 hMem with rfl | hTail
        · rw [Mark.filled, placeholder_of_long hLong] at ht
          simp at ht
        · exact hTail
      have hFirst :
          m.filled source args = .error .tooManyDigits ∨
            ∃ t, m.filled source args = .ok t := by
        cases m with
        | placeholder ds =>
            rcases Nat.lt_or_ge Decimal.maxDigits ds.length
              with hds | hds
            · exact .inl (placeholder_of_long hds)
            · have hLt := hCovered ds List.mem_cons_self
              exact .inr ⟨_, placeholder_of_lt hTexts hds hLt⟩
        | _ =>
            exact .inr ⟨_, rfl⟩
      rcases hFirst with hError | ⟨t, ht⟩
      · simp only [fillMarks, hError]
      · simp only [fillMarks, ht,
          ih hCovered.of_cons (hRest t ht)]

theorem substitute_of_long
    {b : Block}
    {digits : Text}
    {args : List Value}
    (hTexts : ∀ v ∈ args, v.render.isSome = true)
    (hCovered : Covered args.length (marks b.body))
    (hMem : .placeholder digits ∈ marks b.body)
    (hLong : Decimal.maxDigits < digits.length) :
    b.substitute args = .error .tooManyDigits := by
  rw [substitute, fill_eq_fillMarks,
    fillMarks_of_long hTexts hCovered hMem hLong]
  rfl

end Block

end StackCalc

------------------------------------------------------------
-- The Block In Its Own Line
------------------------------------------------------------

namespace StackCalc

open Text

/- An inert character in front of a token belongs to it. -/
theorem Token.split_cons_of_isInert
    {c d : Char}
    {t : Text}
    (hc : isInert c = true)
    (hd : d ≠ ' ')
    (h : split (d :: t) = [d :: t]) :
    split (c :: d :: t) = [c :: d :: t] := by
  have hWord : IsWord [c] :=
    (isCompact_of_isInert (by simpa using hc)).isWord
  have hLonger :
      pieces .start (c :: d :: t) =
        (c :: (pieces .start (d :: t)).1,
          (pieces .start (d :: t)).2) :=
    pieces_isWord hWord (d :: t)
  have hFirst :
      pieces .start (d :: t) =
        (d :: (pieces (Nesting.start.after d) t).1,
          (pieces (Nesting.start.after d) t).2) := by
    rw [pieces, if_neg fun hSpace => hd hSpace.1]
  rw [split_eq_filter, hFirst] at h
  rw [split_eq_filter, hLonger, hFirst]
  simpa using h

namespace Block

/- Values for all placeholders of a line fill it. -/
theorem substitute_of_covered
    {b : Block}
    {args : List Value}
    (hKinds : ∀ v ∈ args, v.kind ≠ .string)
    (hTexts : ∀ v ∈ args, v.render.isSome = true)
    (hShort :
      ∀ digits, .placeholder digits ∈ marks b.body →
        digits.length ≤ Decimal.maxDigits)
    (hCovered : Covered args.length (marks b.body)) :
    b.substitute args =
      .ok (expanded ('\'' :: b.source) args b.body) := by
  rcases substitute_cases hKinds hTexts hShort with
    ⟨-, hLine⟩ | ⟨digits, hMem, hLe, -⟩
  · exact hLine
  · have hLt := hCovered digits hMem
    omega

/- A block leaves nothing open that its line does not. -/
theorem isBalanced_deferred
    {count line : Text}
    (hCount : isCount count = true)
    (hLine : line.IsBalanced) :
    IsBalanced ('\'' :: counted count line) := by
  have hDigits : IsBalanced count :=
    (Token.isCompact_of_isInert fun c hc =>
      Token.isInert_of_isDigit
        (isDigit_of_isCount hCount hc)).isBalanced
  have hBar : IsBalanced ['|'] :=
    ⟨by decide, by decide, by decide⟩
  have hMark : IsBalanced ['\''] :=
    ⟨by decide, by decide, by decide⟩
  exact hMark.append
    (hDigits.append (hBar.append hLine)).braced

/- A line with the word for the block between two texts. -/
def aroundSelf
    (p q : Text) : Text :=
  p ++ " SELF ".toList ++ q

theorem aroundSelf_eq
    (p q : Text) :
    aroundSelf p q = p ++ ' ' :: (selfWord ++ ' ' :: q) := by
  simp [aroundSelf, selfWord]

theorem marks_aroundSelf
    (p q : Text) :
    marks (aroundSelf p q) =
      marks p ++
        .other ' ' :: .self :: .other ' ' :: marks q := by
  have hSelf : marks selfWord = [.self] := by
    simp [selfWord, marks]
  rw [aroundSelf_eq, marks_append_space, marks_append_space,
    hSelf, List.singleton_append]

theorem expanded_aroundSelf
    (self : Text)
    (args : List Value)
    (p q : Text) :
    expanded self args (aroundSelf p q) =
      expanded self args p ++
        ' ' :: (self ++ ' ' :: expanded self args q) := by
  simp [expanded, marks_aroundSelf, Mark.expansion]

theorem isBalanced_aroundSelf
    {p q : Text}
    (hp : p.IsBalanced)
    (hq : q.IsBalanced) :
    IsBalanced (aroundSelf p q) := by
  have hSelf : IsBalanced " SELF ".toList :=
    ⟨by decide, by decide, by decide⟩
  exact (hp.append hSelf).append hq

/- Blanks are stripped off the ends of a line only. -/
theorem strip_aroundSelf
    {p q : Text}
    (hp : p ≠ [])
    (hq : q ≠ [])
    (hFront : ∀ c ∈ p.head?, isBlank c = false)
    (hBack : ∀ c ∈ q.getLast?, isBlank c = false) :
    strip (aroundSelf p q) = aroundSelf p q := by
  apply strip_eq_self
  · rw [aroundSelf, List.append_assoc,
      List.head?_append_of_ne_nil p hp]
    exact hFront
  · rw [aroundSelf, List.getLast?_append_of_ne_nil _ hq]
    exact hBack

/- The placeholders of a line are those around the word. -/
theorem placeholder_mem_aroundSelf_iff
    {p q digits : Text} :
    .placeholder digits ∈ marks (aroundSelf p q) ↔
      .placeholder digits ∈ marks p ++ marks q := by
  simp [marks_aroundSelf]

/-
  A block that is one token and has the word for itself
  between two balanced texts, of which nothing is stripped.
-/
structure HoldsSelf
    (count p q : Text) : Prop where
  isCount :
    isCount count = true
  front :
    p.IsBalanced
  back :
    q.IsBalanced
  front_ne_nil :
    p ≠ []
  back_ne_nil :
    q ≠ []
  front_start :
    ∀ c ∈ p.head?, isBlank c = false
  back_end :
    ∀ c ∈ q.getLast?, isBlank c = false
  whole :
    Token.tokenize (counted count (aroundSelf p q)) =
      [⟨counted count (aroundSelf p q), 0⟩]

/- Inert texts around the word need no more than that. -/
theorem holdsSelf_of_isInert
    {count p q : Text}
    (hCount : isCount count = true)
    (hp : ∀ c ∈ p, Token.isInert c = true)
    (hq : ∀ c ∈ q, Token.isInert c = true)
    (hpNe : p ≠ [])
    (hqNe : q ≠ [])
    (hFront : ∀ c ∈ p.head?, isBlank c = false)
    (hBack : ∀ c ∈ q.getLast?, isBlank c = false) :
    HoldsSelf count p q := by
  have hInside : '}' ∉ count ++ '|' :: aroundSelf p q := by
    have hDigit : '}' ∉ count := by
      intro hMem
      exact absurd (isDigit_of_isCount hCount hMem)
        (by decide)
    have hBefore : '}' ∉ p := by
      intro hMem
      exact absurd (hp _ hMem) (by decide)
    have hAfter : '}' ∉ q := by
      intro hMem
      exact absurd (hq _ hMem) (by decide)
    simp [aroundSelf, hDigit, hBefore, hAfter]
  have hWhole :=
    Token.tokenize_of_keepsWhole
      (Token.keepsWhole_braced hInside) (List.cons_ne_nil _ _)
  exact
    { isCount := hCount
      front := (Token.isCompact_of_isInert hp).isBalanced
      back := (Token.isCompact_of_isInert hq).isBalanced
      front_ne_nil := hpNe
      back_ne_nil := hqNe
      front_start := hFront
      back_end := hBack
      whole := hWhole }

/-
  Values other than strings that can be written, with one
  for every placeholder.
-/
structure Suits
    (args : List Value)
    (ms : List Mark) : Prop where
  kinds :
    ∀ v ∈ args, v.kind ≠ .string
  texts :
    ∀ v ∈ args, v.render.isSome = true
  covered :
    Covered args.length ms

theorem Suits.covered_aroundSelf
    {p q : Text}
    {args : List Value}
    (h : Suits args (marks p ++ marks q)) :
    Covered args.length (marks (aroundSelf p q)) :=
  fun digits hMem =>
    h.covered digits (placeholder_mem_aroundSelf_iff.1 hMem)

theorem HoldsSelf.parse_eq
    {count p q : Text}
    (h : HoldsSelf count p q)
    (hFew : count.length ≤ Decimal.maxDigits) :
    parse (counted count (aroundSelf p q)) =
      .ok ⟨counted count (aroundSelf p q),
        Decimal.natValue count, aroundSelf p q⟩ := by
  have hRead := parse_counted h.isCount (aroundSelf p q)
  rwa [Decimal.natValue?, if_pos hFew,
    strip_aroundSelf h.front_ne_nil h.back_ne_nil
      h.front_start h.back_end] at hRead

/-
  The word for the block stands for a token of its own that
  pushes the block as it was written. The texts around it
  are split as if each were a line, with their marks
  replaced. The count and the placeholders must not have
  more digits than can be read.
-/
theorem split_substitute_self
    {count p q : Text}
    {args : List Value}
    (hBlock : HoldsSelf count p q)
    (hArgs : Suits args (marks p ++ marks q))
    (hFew : count.length ≤ Decimal.maxDigits)
    (hShort :
      ∀ digits, .placeholder digits ∈ marks p ++ marks q →
        digits.length ≤ Decimal.maxDigits) :
    let source := counted count (aroundSelf p q)
    let self : Text := '\'' :: source
    ∃ b line, parse source = .ok b ∧
      b.substitute args = .ok line ∧
      Token.split line =
        Token.split (expanded self args p) ++ [self] ++
          Token.split (expanded self args q) ∧
      ∀ depth s,
        Run.dispatch (depth + 1) self s =
          .ok (.deferred source :: s) := by
  intro source self
  have hParse := hBlock.parse_eq hFew
  have hLine :=
    substitute_of_covered
      (b := ⟨source, Decimal.natValue count, aroundSelf p q⟩)
      hArgs.kinds hArgs.texts
      (fun digits h =>
        hShort digits (placeholder_mem_aroundSelf_iff.1 h))
      hArgs.covered_aroundSelf
  have hSelf : self.IsBalanced :=
    isBalanced_deferred hBlock.isCount
      (isBalanced_aroundSelf hBlock.front hBlock.back)
  have hToken : Token.split self = [self] := by
    have hSource : Token.split source = [source] :=
      congrArg (List.map Token.text) hBlock.whole
    exact Token.split_cons_of_isInert rfl (by decide) hSource
  have hBefore : IsBalanced (expanded self args p) := by
    refine isBalanced_expanded hSelf hArgs.kinds hArgs.texts
      ?_ hBlock.front
    intro digits h
    exact hArgs.covered digits (List.mem_append_left _ h)
  refine ⟨_, _, hParse, hLine, ?_, ?_⟩
  · rw [expanded_aroundSelf,
      Token.split_append_space hBefore,
      Token.split_append_space hSelf, hToken,
      List.append_assoc]
  · intro depth s
    have hBrace : source.head? = some '{' := rfl
    rw [Run.dispatch_quote, Run.quote,
      if_pos (by simp [hBrace])]

/-
  A string with brackets the wrong way round before the
  word, and after it a block with marks of its own.
-/
theorem split_substitute_self_nested :
    let p := "x1 \"] [\"".toList
    let q := "\x7b1|x0 SELF\x7d EVAL".toList
    let args : List Value :=
      [.boolean true, .vector (.ints [5, -1])]
    let source := counted "2".toList (aroundSelf p q)
    HoldsSelf "2".toList p q ∧
      Suits args (marks p ++ marks q) ∧
      "2".toList.length ≤ Decimal.maxDigits ∧
      (∀ digits, .placeholder digits ∈ marks p ++ marks q →
        digits.length ≤ Decimal.maxDigits) ∧
      ∃ b line, parse source = .ok b ∧
        b.substitute args = .ok line ∧
        Token.split line =
          [ "[5, -1]".toList,
            "\"] [\"".toList,
            '\'' :: source,
            "\x7b1|true '".toList ++ source ++ ['}'],
            "EVAL".toList ] ∧
        ∀ depth s,
          Run.dispatch (depth + 1) ('\'' :: source) s =
            .ok (.deferred source :: s) := by
  intro p q args source
  have hFirst : isBlank 'x' = false := by
    decide
  have hLast : isBlank 'L' = false := by
    decide
  have hBlock : HoldsSelf "2".toList p q :=
    { isCount := by decide
      front := ⟨by decide, by decide, by decide⟩
      back := ⟨by decide, by decide, by decide⟩
      front_ne_nil := by simp [p]
      back_ne_nil := by simp [q]
      front_start := by simp [p, hFirst]
      back_end := by simp [q, hLast]
      whole := by decide }
  have hMarksFront :
      marks p =
        .placeholder ['1'] ::
          " \"] [\"".toList.map .other := by
    simp [p, marks, Numeral.startsWithDigit]
  have hMarksBack :
      marks q =
        "\x7b1|".toList.map .other ++
          [.placeholder ['0'], .other ' ', .self] ++
          "\x7d EVAL".toList.map .other := by
    simp [q, marks, Numeral.startsWithDigit]
  have hPlaces :
      ∀ digits, .placeholder digits ∈ marks p ++ marks q →
        digits = ['1'] ∨ digits = ['0'] := by
    rw [hMarksFront, hMarksBack]
    simp
  have hArgs : Suits args (marks p ++ marks q) :=
    { kinds := by decide
      texts := by decide
      covered := by
        intro digits h
        rcases hPlaces digits h with rfl | rfl
        · decide
        · decide }
  have hShort :
      ∀ digits, .placeholder digits ∈ marks p ++ marks q →
        digits.length ≤ Decimal.maxDigits := by
    intro digits h
    rcases hPlaces digits h with rfl | rfl
    · decide
    · decide
  have hRun :=
    split_substitute_self hBlock hArgs (by decide) hShort
  simp only [expanded, hMarksFront, hMarksBack] at hRun
  exact ⟨hBlock, hArgs, by decide, hShort, hRun⟩

/-
  With too many zeros in a placeholder or in a count, all
  but their length is as it should be, and there is no line.
-/
theorem substitute_self_zeros :
    let zeros := List.replicate (Decimal.maxDigits + 1) '0'
    let p : Text := 'x' :: zeros
    let q : Text := "1".toList
    let args : List Value := [.boolean true]
    (HoldsSelf "1".toList p q ∧
      ¬ selfWord <:+: p ∧
      Suits args (marks p ++ marks q) ∧
      ∃ b,
        parse (counted "1".toList (aroundSelf p q)) = .ok b ∧
          b.substitute args = .error .tooManyDigits) ∧
    (HoldsSelf zeros q q ∧
      ¬ selfWord <:+: q ∧
      Suits [] (marks q ++ marks q) ∧
      parse (counted zeros (aroundSelf q q)) =
        .error .tooManyDigits) := by
  intro zeros p q args
  have hDigits : ∀ c ∈ zeros, c.isDigit = true := by
    intro c hc
    rw [List.eq_of_mem_replicate hc]
    decide
  have hCount : isCount zeros = true := by
    simp [isCount, zeros]
  have hFront : marks p = [.placeholder zeros] :=
    marks_placeholder (by simp [zeros]) hDigits
  have hBack : marks q = [.other '1'] := by
    simp [q, marks]
  have hFirst : isBlank 'x' = false := by
    decide
  have hOnly : isBlank '1' = false := by
    decide
  have hInert : ∀ c ∈ q, Token.isInert c = true :=
    List.all_eq_true.1 rfl
  have hBlock : HoldsSelf "1".toList p q := by
    refine holdsSelf_of_isInert (by decide) ?_ hInert
      (List.cons_ne_nil _ _) (List.cons_ne_nil _ _)
      (by simp [p, hFirst]) (by simp [q, hOnly])
    intro c hc
    rcases List.mem_cons.1 hc with rfl | hZero
    · rfl
    · exact Token.isInert_of_isDigit (hDigits c hZero)
  have hArgs : Suits args (marks p ++ marks q) :=
    { kinds := by decide
      texts := by decide
      covered := by
        intro digits h
        have hZeros : digits = zeros := by
          simpa [hFront, hBack] using h
        rw [hZeros, Decimal.natValue_zeros]
        exact Nat.zero_lt_one }
  refine ⟨⟨hBlock, ?_, hArgs, _, hBlock.parse_eq (by decide),
    ?_⟩, ?_, by decide, ?_, ?_⟩
  · intro hWord
    have hLetter : 'S' ∈ zeros := by
      have hIn : 'S' ∈ p := hWord.subset List.mem_cons_self
      simpa [p] using hIn
    exact absurd (hDigits 'S' hLetter) (by decide)
  · have hMem :
        .placeholder zeros ∈ marks (aroundSelf p q) := by
      rw [placeholder_mem_aroundSelf_iff, hFront]
      exact List.mem_cons_self
    exact substitute_of_long hArgs.texts
      hArgs.covered_aroundSelf hMem (by simp [zeros])
  · exact holdsSelf_of_isInert hCount hInert hInert
      (List.cons_ne_nil _ _) (List.cons_ne_nil _ _)
      (by simp [q, hOnly]) (by simp [q, hOnly])
  · exact ⟨by simp, by simp, by simp [hBack, Covered]⟩
  · rw [parse_counted hCount, Decimal.natValue?,
      if_neg (by simp [zeros])]

end Block

end StackCalc
