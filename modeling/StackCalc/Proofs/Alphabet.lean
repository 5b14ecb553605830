import StackCalc.Proofs.Invariants
import StackCalc.Proofs.LineBreaks
import StackCalc.Proofs.ReadValues
import StackCalc.Proofs.Spelling

/-
  The characters that texts in a run can have.

  By itself the calculator writes numbers, truth values,
  arrays, quotes and the names of operators. All other
  characters come from the program: strings are cut out of
  it, joined and repeated, and lines of blocks are put
  together from it. So an alphabet that has the characters
  of a program and those that the calculator writes has all
  characters there will be.

  Main declarations:
    * `Text.IsFigure`
    * `Text.IsRendered`
    * `Text.IsWritten`
    * `Text.Over`
    * `Value.over_renderFloat`
    * `Value.Rendering`
    * `Value.rendering_of_kind`
    * `Value.WrittenOver`
    * `Block.over_of_runs`
    * `Run.invariant_writtenOver`
-/

------------------------------------------------------------
-- Alphabets
------------------------------------------------------------

namespace StackCalc

namespace Text

/- Whether a character stands in the text of a number. -/
def isFigure (c : Char) : Bool :=
  c.isDigit || "+-.eInfinityNaN".toList.contains c

/- Characters of numbers. -/
def IsFigure (c : Char) : Prop :=
  isFigure c = true

instance
    (c : Char) :
    Decidable (IsFigure c) :=
  inferInstanceAs (Decidable (isFigure c = true))

/-
  Whether a character stands in the text of a number, of an
  array or of a truth value.
-/
def isRendered (c : Char) : Bool :=
  c.isDigit || "+-.e, []truefalsInfinityNaN".toList.contains c

/- Characters of values other than strings. -/
def IsRendered (c : Char) : Prop :=
  isRendered c = true

instance
    (c : Char) :
    Decidable (IsRendered c) :=
  inferInstanceAs (Decidable (isRendered c = true))

/-
  Whether the calculator writes a character by itself: one
  of numbers, arrays and truth values, a quote, or one of
  the name of an operator.
-/
def isWritten (c : Char) : Bool :=
  c.isDigit ||
    "+-.e, []truefalsInfinityNaN'\"".toList.contains c ||
    Operator.all.any fun op => op.name.contains c

/- Characters that the calculator writes by itself. -/
def IsWritten (c : Char) : Prop :=
  isWritten c = true

instance
    (c : Char) :
    Decidable (IsWritten c) :=
  inferInstanceAs (Decidable (isWritten c = true))

/- All characters of a text belong to an alphabet. -/
def Over
    (A : Char → Prop)
    (t : Text) : Prop :=
  ∀ c ∈ t, A c

instance
    {A : Char → Prop}
    [DecidablePred A]
    (t : Text) :
    Decidable (Over A t) :=
  List.decidableBAll A t

/- The calculator writes what it renders. -/
theorem isWritten_of_isRendered
    (c : Char)
    (h : IsRendered c) :
    IsWritten c := by
  have hListed :
      Over IsWritten
        "+-.e, []truefalsInfinityNaN".toList := by
    decide
  rcases Bool.or_eq_true_iff.1 h with hDigit | hMem
  · simp [IsWritten, isWritten, hDigit]
  · exact hListed c (List.contains_iff_mem.1 hMem)

variable {A B : Char → Prop}

@[simp] theorem over_nil :
    Over A [] := by
  simp [Over]

@[simp] theorem over_cons_iff
    {c : Char}
    {t : Text} :
    Over A (c :: t) ↔ A c ∧ Over A t := by
  simp [Over]

@[simp] theorem over_append_iff
    {s t : Text} :
    Over A (s ++ t) ↔ Over A s ∧ Over A t := by
  simp only [Over, List.forall_mem_append]

@[simp] theorem over_reverse_iff
    {t : Text} :
    Over A t.reverse ↔ Over A t := by
  simp only [Over, List.mem_reverse]

theorem Over.mono
    {t : Text}
    (h : Over A t)
    (hAB : ∀ c, A c → B c) :
    Over B t :=
  fun c hc => hAB c (h c hc)

theorem Over.of_subset
    {s t : Text}
    (h : Over A t)
    (hPart : s ⊆ t) :
    Over A s :=
  fun c hc => h c (hPart hc)

/- Numbers are written in characters of values. -/
theorem Over.rendered
    {t : Text}
    (h : Over IsFigure t) :
    Over IsRendered t := by
  have hListed :
      Over IsRendered "+-.eInfinityNaN".toList := by
    decide
  refine h.mono fun c hc => ?_
  rcases Bool.or_eq_true_iff.1 hc with hDigit | hMem
  · simp [IsRendered, isRendered, hDigit]
  · exact hListed c (List.contains_iff_mem.1 hMem)

theorem over_joinWith
    {sep : Text}
    {ts : List Text}
    (hSep : Over A sep)
    (hts : ∀ t ∈ ts, Over A t) :
    Over A (joinWith sep ts) := by
  intro c hc
  rcases mem_joinWith hc with hMem | ⟨t, ht, hMem⟩
  · exact hSep c hMem
  · exact hts t ht c hMem

end Text

end StackCalc

------------------------------------------------------------
-- Written Numbers
------------------------------------------------------------

namespace StackCalc

open Text

namespace Decimal

theorem over_natText
    (n : Nat) :
    Over IsFigure (natText n) := by
  intro c hc
  simp [IsFigure, isFigure, isDigit_of_mem_natText hc]

theorem over_intText
    (z : Int) :
    Over IsFigure (intText z) := by
  unfold intText
  split
  · exact over_cons_iff.2 ⟨by decide, over_natText _⟩
  · exact over_natText _

theorem over_zeros
    (n : Int) :
    Over IsFigure (zeros n) := by
  intro c hc
  rw [List.eq_of_mem_replicate hc]
  decide

theorem over_digitsOf
    (d : Scientific) :
    Over IsFigure (digitsOf d).digits := by
  apply (over_natText d.mantissa).of_subset
  intro c hc
  have hDropped := List.mem_reverse.1 hc
  exact List.mem_reverse.1
    ((List.dropWhile_sublist _).subset hDropped)

theorem over_positional
    {d : Digits}
    (h : Over IsFigure d.digits) :
    Over IsFigure (positional d) := by
  have hPoint : IsFigure '.' := by decide
  have hBefore : Over IsFigure "0.".toList := by decide
  have hAfter : Over IsFigure ".0".toList := by decide
  unfold positional
  split
  · exact over_append_iff.2
      ⟨over_append_iff.2 ⟨hBefore, over_zeros _⟩, h⟩
  · split
    · exact over_append_iff.2
        ⟨h.of_subset (List.take_subset _ _),
          over_cons_iff.2
            ⟨hPoint, h.of_subset (List.drop_subset _ _)⟩⟩
    · exact over_append_iff.2
        ⟨over_append_iff.2 ⟨h, over_zeros _⟩, hAfter⟩

theorem over_exponentText
    (e : Int) :
    Over IsFigure (exponentText e) := by
  refine over_cons_iff.2 ⟨?_, over_append_iff.2
    ⟨over_zeros _, over_natText _⟩⟩
  split
  · decide
  · decide

theorem over_exponential
    (fmt : FloatFormat)
    {d : Digits}
    (h : Over IsFigure d.digits) :
    Over IsFigure (exponential fmt d) := by
  have hMore : Over IsFigure (d.digits.drop 1) :=
    h.of_subset (List.drop_subset _ _)
  have hFraction :
      Over IsFigure
        (if (d.digits.drop 1).isEmpty then
          if fmt.fullMantissa then ".0".toList else []
        else '.' :: d.digits.drop 1) := by
    split
    · split
      · decide
      · exact over_nil
    · exact over_cons_iff.2 ⟨by decide, hMore⟩
  exact over_append_iff.2
    ⟨over_append_iff.2
      ⟨h.of_subset (List.take_subset _ _), hFraction⟩,
      over_cons_iff.2 ⟨by decide, over_exponentText _⟩⟩

theorem over_layout
    (fmt : FloatFormat)
    {d : Digits}
    (h : Over IsFigure d.digits) :
    Over IsFigure (layout fmt d) := by
  unfold layout
  split
  · exact over_positional h
  · exact over_exponential fmt h

/- A written double has a point or an exponent. -/
theorem layout_ne_nil
    (fmt : FloatFormat)
    (d : Digits) :
    layout fmt d ≠ [] := by
  unfold layout positional exponential
  split
  · split
    · simp
    · split
      · simp
      · simp
  · simp

end Decimal

namespace Value

open Decimal

theorem over_renderFloat
    (x : Float) :
    Over IsFigure (renderFloat x) := by
  have hSize :
      Over IsFigure (magnitudeText floatFormat x) := by
    unfold magnitudeText
    split
    · decide
    · split
      · decide
      · exact over_layout _ (over_digitsOf _)
  unfold renderFloat floatText
  split
  · decide
  · split
    · exact over_cons_iff.2 ⟨by decide, hSize⟩
    · exact hSize

theorem renderFloat_ne_nil
    (x : Float) :
    renderFloat x ≠ [] := by
  have hSize : magnitudeText floatFormat x ≠ [] := by
    unfold magnitudeText
    split
    · decide
    · split
      · decide
      · exact layout_ne_nil _ _
  unfold renderFloat floatText
  split
  · decide
  · split
    · exact List.cons_ne_nil _ _
    · exact hSize

end Value

end StackCalc

------------------------------------------------------------
-- Rendered Values
------------------------------------------------------------

namespace StackCalc

open Text

namespace Value

/-
  The texts of values other than strings: numbers, truth
  values, and lists of such texts between brackets.
-/
inductive Rendering : Text → Prop where
  | number
      {t : Text}
      (hFigures : Over IsFigure t)
      (hNe : t ≠ []) :
      Rendering t
  | boolean
      (b : Bool) :
      Rendering (renderBool b)
  | array
      {ts : List Text}
      (h : ∀ t ∈ ts, Rendering t) :
      Rendering (bracketed ts)

theorem rendering_intText
    (z : Int) :
    Rendering (Decimal.intText z) := by
  rcases Literal.exists_intText_eq_cons z with
    ⟨c, r, hCons, -⟩
  refine .number (Decimal.over_intText z) ?_
  rw [hCons]
  exact List.cons_ne_nil c r

theorem rendering_renderFloat
    (x : Float) :
    Rendering (renderFloat x) :=
  .number (over_renderFloat x) (renderFloat_ne_nil x)

theorem rendering_bracketed
    {α : Type}
    {f : α → Text}
    (h : ∀ a, Rendering (f a))
    (as : List α) :
    Rendering (bracketed (as.map f)) := by
  apply Rendering.array
  intro t ht
  rcases List.mem_map.1 ht with ⟨a, -, rfl⟩
  exact h a

theorem rendering_of_kind
    {v : Value}
    {t : Text}
    (h : v.kind ≠ .string)
    (ht : v.render = some t) :
    Rendering t := by
  cases v with
  | integer z =>
      simp only [render, Decimal.intText?] at ht
      split at ht
      · rw [← Option.some.inj ht]
        exact rendering_intText z
      · simp at ht
  | float x =>
      rw [← Option.some.inj ht]
      exact rendering_renderFloat x
  | boolean b =>
      rw [← Option.some.inj ht]
      exact .boolean b
  | string u =>
      exact absurd rfl h
  | deferred u =>
      exact absurd rfl h
  | vector w =>
      rw [← Option.some.inj ht]
      cases w with
      | ints zs =>
          exact rendering_bracketed rendering_intText zs
      | floats xs =>
          exact rendering_bracketed rendering_renderFloat xs
  | matrix m =>
      rw [← Option.some.inj ht]
      cases m with
      | ints g =>
          exact rendering_bracketed
            (rendering_bracketed rendering_intText) g.rows
      | floats g =>
          exact rendering_bracketed
            (rendering_bracketed rendering_renderFloat) g.rows

theorem Rendering.over
    {t : Text}
    (h : Rendering t) :
    Over IsRendered t := by
  induction h with
  | number hFigures hNe =>
      exact hFigures.rendered
  | boolean b =>
      cases b with
      | true => decide
      | false => decide
  | @array ts h ih =>
      have hItems :
          Over IsRendered (joinWith ", ".toList ts) :=
        over_joinWith (by decide) ih
      exact over_cons_iff.2 ⟨by decide,
        over_append_iff.2 ⟨hItems, by decide⟩⟩

theorem Rendering.ne_nil
    {t : Text}
    (h : Rendering t) :
    t ≠ [] := by
  cases h with
  | number hFigures hNe =>
      exact hNe
  | boolean b =>
      cases b with
      | true => decide
      | false => decide
  | array h =>
      exact List.cons_ne_nil _ _

end Value

end StackCalc

------------------------------------------------------------
-- Written Values
------------------------------------------------------------

namespace StackCalc

open Text

namespace Value

variable {A : Char → Prop}

/- The text of a value is over an alphabet. -/
def WrittenOver
    (A : Char → Prop)
    (v : Value) : Prop :=
  ∀ t, v.render = some t → Over A t

/- Values other than strings are over every alphabet. -/
theorem writtenOver_of_kind
    (hA : ∀ c, IsWritten c → A c)
    {v : Value}
    (h : v.kind ≠ .string) :
    v.WrittenOver A := by
  intro t ht
  exact (rendering_of_kind h ht).over.mono fun c hc =>
    hA c (isWritten_of_isRendered c hc)

@[simp] theorem writtenOver_string_iff
    {t : Text} :
    (string t).WrittenOver A ↔ Over A t := by
  simp [WrittenOver, render]

@[simp] theorem writtenOver_deferred_iff
    {t : Text} :
    (deferred t).WrittenOver A ↔ Over A t := by
  simp [WrittenOver, render]

end Value

end StackCalc

------------------------------------------------------------
-- Operators And Literals
------------------------------------------------------------

namespace StackCalc

open Text

variable {A : Char → Prop}

namespace Text

/- Quotes are put on by the calculator. -/
theorem over_toggleQuotes
    (hA : ∀ c, IsWritten c → A c)
    {t : Text}
    (h : Over A t) :
    Over A (toggleQuotes t) := by
  have hQuote : A '"' := hA '"' (by decide)
  unfold toggleQuotes
  split
  · apply h.of_subset
    intro c hc
    exact List.mem_of_mem_tail (List.mem_of_mem_dropLast hc)
  · simp [inQuotes, hQuote, h]

theorem over_repeated
    {t : Text}
    (h : Over A t)
    (n : Nat) :
    Over A (repeated t n) := by
  unfold repeated
  split
  · exact over_nil
  · intro c hc
    rcases List.mem_flatten.1 hc with ⟨u, hu, hMem⟩
    rw [List.eq_of_mem_replicate hu] at hMem
    exact h c hMem

end Text

/- What operators see of a string is over the alphabet. -/
theorem Value.over_of_operand
    (hA : ∀ c, IsWritten c → A c)
    {v : Value}
    {t : Text}
    (hv : v.WrittenOver A)
    (h : v.operand = .text t) :
    Over A t := by
  cases v with
  | string u =>
      rw [← Operand.text.inj h]
      exact over_toggleQuotes hA (writtenOver_string_iff.1 hv)
  | deferred u =>
      rw [← Operand.text.inj h]
      exact over_toggleQuotes hA
        (writtenOver_deferred_iff.1 hv)
  | _ =>
      simp [operand] at h

/- Operators join and repeat what they get. -/
theorem Binary.Gives.writtenOver
    (hA : ∀ c, IsWritten c → A c)
    {l r v : Value}
    (h : Gives l.operand r.operand v)
    (hl : l.WrittenOver A)
    (hr : r.WrittenOver A) :
    v.WrittenOver A := by
  cases h with
  | number n =>
      apply Value.writtenOver_of_kind hA
      cases n with
      | _ =>
          simp [Value.ofNumber, Value.kind]
  | joined hs ht =>
      rw [Value.ofText, Value.writtenOver_string_iff]
      apply over_toggleQuotes hA
      exact over_append_iff.2
        ⟨Value.over_of_operand hA hl hs,
          Value.over_of_operand hA hr ht⟩
  | repeated n ht =>
      rw [Value.ofText, Value.writtenOver_string_iff]
      exact over_toggleQuotes hA
        (over_repeated (Value.over_of_operand hA hl ht) n)
  | _ =>
      apply Value.writtenOver_of_kind hA
      simp [Value.kind]

namespace Literal

open Grammar

/- A string is cut out of the text it is read from. -/
theorem writtenOver_of_parse
    (hA : ∀ c, IsWritten c → A c)
    {t : Text}
    {v : Value}
    (h : parse t = .ok v)
    (ht : Over A t) :
    v.WrittenOver A := by
  rcases spells_of_parse h with
    ⟨-, rfl⟩ | ⟨front, l, back, -, -, rfl, hSpells⟩
  · exact Value.writtenOver_string_iff.2 ht
  · rw [over_append_iff, over_append_iff] at ht
    cases hSpells with
    | scalar hScalar =>
        cases hScalar with
        | @number _ n hNumber =>
            apply Value.writtenOver_of_kind hA
            cases n with
            | _ =>
                simp [Scalar.toValue, Value.kind]
        | string hPlain =>
            exact Value.writtenOver_string_iff.2 ht.2.1
        | _ =>
            apply Value.writtenOver_of_kind hA
            simp [Scalar.toValue, Value.kind]
    | _ =>
        apply Value.writtenOver_of_kind hA
        simp [Value.kind]

end Literal

end StackCalc

------------------------------------------------------------
-- Tokens And Blocks
------------------------------------------------------------

namespace StackCalc

open Text

variable {A : Char → Prop}

namespace Token

/- Pieces of a line hold its characters. -/
theorem over_pieces
    (n : Nesting)
    {line : Text}
    (h : Over A line) :
    Over A (pieces n line).1 ∧
      ∀ p ∈ (pieces n line).2, Over A p := by
  induction line generalizing n with
  | nil =>
      simp [pieces]
  | cons c rest ih =>
      rcases over_cons_iff.1 h with ⟨hc, hRest⟩
      unfold pieces
      split
      · have hPieces := ih n hRest
        simpa using hPieces
      · have hPieces := ih (n.after c) hRest
        exact ⟨over_cons_iff.2 ⟨hc, hPieces.1⟩, hPieces.2⟩

theorem over_of_mem_split
    {line t : Text}
    (h : Over A line)
    (ht : t ∈ split line) :
    Over A t := by
  rw [split_eq_filter] at ht
  have hPieces := over_pieces Nesting.start h
  rcases List.mem_cons.1 (List.mem_filter.1 ht).1 with
    rfl | hMore
  · exact hPieces.1
  · exact hPieces.2 t hMore

end Token

namespace Text

theorem strip_subset
    (t : Text) :
    strip t ⊆ t := by
  intro c hc
  have hDropped := List.mem_reverse.1
    ((List.dropWhile_sublist _).subset (List.mem_reverse.1 hc))
  exact (List.dropWhile_sublist _).subset hDropped

theorem dropLineFeeds_subset
    (t : Text) :
    dropLineFeeds t ⊆ t := by
  intro c hc
  exact List.mem_reverse.1
    ((List.dropWhile_sublist _).subset (List.mem_reverse.1 hc))

end Text

namespace Block

/- A block keeps its source, and its body is part of it. -/
theorem over_of_parse
    {source : Text}
    {b : Block}
    (h : parse source = .ok b)
    (hSource : Over A source) :
    Over A b.source ∧ Over A b.body := by
  unfold parse at h
  simp only at h
  split at h
  · split at h
    · simp at h
    · rename_i c body hBody
      split at h
      · split at h
        · simp at h
        · rw [← Except.ok.inj h]
          refine ⟨hSource, hSource.of_subset ?_⟩
          intro d hd
          have hRest : d ∈ c :: body :=
            List.mem_cons_of_mem c (strip_subset body hd)
          rw [← hBody] at hRest
          have hInner :=
            (List.dropWhile_sublist _).subset hRest
          exact List.mem_of_mem_tail
            (List.mem_of_mem_dropLast hInner)
      · simp at h
  · simp at h

theorem over_of_placeholder
    {source digits t : Text}
    {args : List Value}
    (hArgs : ∀ v ∈ args, v.WrittenOver A)
    (h : placeholder source args digits = .ok t) :
    Over A t := by
  unfold placeholder at h
  split at h
  · simp at h
  · split at h
    · simp at h
    · rename_i v hArg
      split at h
      · simp at h
      · rename_i u hText
        rw [← Except.ok.inj h]
        exact hArgs v (List.mem_of_getElem? hArg) u hText

theorem over_of_fill
    {source body t : Text}
    {args : List Value}
    (hArgs : ∀ v ∈ args, v.WrittenOver A)
    (hBody : Over A body)
    (h : fill source args body = .ok t) :
    Over A t := by
  fun_induction fill source args body generalizing t with
  | case1 =>
      rw [← Except.ok.inj h]
      exact over_nil
  | case2 =>
      simp at h
  | case3 =>
      simp at h
  | case4 c rest hc u hPlace more hFill ih =>
      rw [← Except.ok.inj h, over_append_iff]
      refine ⟨over_of_placeholder hArgs hPlace, ?_⟩
      apply ih _ hFill
      exact (over_cons_iff.1 hBody).2.of_subset
        (List.dropWhile_sublist _).subset
  | case5 =>
      simp at h
  | case6 c rest hc more hFill ih =>
      rcases over_cons_iff.1 hBody with ⟨hFirst, hRest⟩
      rw [← Except.ok.inj h, over_cons_iff]
      exact ⟨hFirst, ih hRest hFill⟩

theorem over_insertSelf
    {self t : Text}
    (hSelf : Over A self)
    (h : Over A t) :
    Over A (insertSelf self t) := by
  fun_induction insertSelf self t with
  | case1 =>
      exact over_nil
  | case2 rest ih =>
      simp only [over_cons_iff] at h
      exact over_append_iff.2 ⟨hSelf, ih h.2.2.2.2⟩
  | case3 c rest hc ih =>
      rw [over_cons_iff] at h ⊢
      exact ⟨h.1, ih h.2⟩

end Block

/- Popped values and the others are the whole stack. -/
theorem Stack.eq_append_of_popMany
    {count : Int}
    {token : Text}
    {s rest : Stack}
    {args : List Value}
    (h : popMany count token s = .ok (args, rest)) :
    s = args ++ rest := by
  unfold popMany require at h
  grind [List.take_append_drop]

namespace Block

/- The line of a block comes from its source and values. -/
theorem over_of_runs
    (hA : ∀ c, IsWritten c → A c)
    {source line : Text}
    {s rest : Stack}
    (h : Runs source s line rest)
    (hSource : Over A source)
    (hs : ∀ v ∈ s, v.WrittenOver A) :
    Over A line := by
  cases h with
  | @line _ _ _ b args hParse hArgs hLine =>
      rcases over_of_parse hParse hSource with ⟨hOwn, hBody⟩
      have hMark : A '\'' := hA '\'' (by decide)
      have hValues : ∀ v ∈ args, v.WrittenOver A := by
        rw [Stack.eq_append_of_popMany hArgs] at hs
        exact (List.forall_mem_append.1 hs).1
      unfold substitute at hLine
      cases hFill : fill b.source args b.body with
      | error e =>
          rw [hFill] at hLine
          simp [bind, Except.bind] at hLine
      | ok filled =>
          rw [hFill] at hLine
          rw [← Except.ok.inj hLine]
          exact over_insertSelf
            (over_cons_iff.2 ⟨hMark, hOwn⟩)
            (over_of_fill hValues hBody hFill)

end Block

end StackCalc

------------------------------------------------------------
-- Runs
------------------------------------------------------------

namespace StackCalc

open Text

namespace Run

variable {A : Char → Prop}

/- The tokens of lines hold their characters. -/
theorem over_of_mem_tokensOf
    {lines : List Text}
    (h : ∀ line ∈ lines, Over A line) :
    ∀ t ∈ tokensOf lines, Over A t := by
  intro t ht
  rcases List.mem_flatMap.1 ht with ⟨line, hLine, hSplit⟩
  exact Token.over_of_mem_split
    ((h line hLine).of_subset (dropLineFeeds_subset line))
    hSplit

/-
  No character comes up in a run but those of the program
  and those that the calculator writes by itself.
-/
theorem invariant_writtenOver
    (hA : ∀ c, IsWritten c → A c) :
    Invariant (Value.WrittenOver A) (Over A) where
  boolean := fun _ =>
    Value.writtenOver_of_kind hA (by simp [Value.kind])
  integer := fun _ =>
    Value.writtenOver_of_kind hA (by simp [Value.kind])
  transpose := fun _ _ =>
    Value.writtenOver_of_kind hA (by simp [Value.kind])
  binary := fun hApply hl hr =>
    (Binary.gives_of_apply hApply).writtenOver hA hl hr
  name := by
    intro op c hc
    have hAll : op ∈ Operator.all :=
      List.mem_of_find?_eq_some (Operator.ofName?_name op)
    apply hA
    simp only [IsWritten, isWritten, Bool.or_eq_true,
      List.any_eq_true, List.contains_iff_mem]
    exact .inr ⟨op, hAll, hc⟩
  unquoted := fun h => (over_cons_iff.1 h).2
  deferred := fun h _ => Value.writtenOver_deferred_iff.2 h
  literal := fun hParse h =>
    Literal.writtenOver_of_parse hA hParse h
  written := fun hText h => h _ hText
  line := fun hRuns hSource hs _ ht =>
    Token.over_of_mem_split
      (Block.over_of_runs hA hRuns hSource hs) ht

end Run

end StackCalc
