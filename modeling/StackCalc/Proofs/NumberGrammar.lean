import StackCalc.Proofs.WrittenInteger

/-
  The grammar of single literals, and that they are read
  by it.

  The grammar is given by relations between a text and what
  it spells. For every part of a literal two things are
  shown: what is read off a text spells what was read, and
  a text that spells something is read as that, as long as
  what follows it does not go on with it.

  Main declarations:
    * `Grammar.Grouped`
    * `Grammar.SpellsNumeral`
    * `Grammar.SpellsNumber`
    * `Grammar.SpellsScalar`
    * `Grammar.HasShortRuns`
    * `Grammar.spellsNumeral_of_read`
    * `Grammar.read_of_spellsNumeral`
    * `Grammar.spellsScalar_of_read`
    * `Grammar.read_of_spellsScalar`
-/

------------------------------------------------------------
-- The Grammar Of Numbers
------------------------------------------------------------

namespace StackCalc

namespace Grammar

/- One digit or more. -/
def IsRun (t : Text) : Prop :=
  t ≠ [] ∧ ∀ c ∈ t, c.isDigit = true

instance
    (t : Text) :
    Decidable (IsRun t) :=
  decidable_of_iff
    (t ≠ [] ∧ t.all Char.isDigit = true)
    (and_congr_right fun _ => List.all_eq_true)

/-
  Runs of digits with single underscores between them, and
  all their digits.
-/
inductive Grouped : Text → Text → Prop
  | run
      {ds : Text}
      (hRun : IsRun ds) :
      Grouped ds ds
  | group
      {ds t es : Text}
      (hRun : IsRun ds)
      (hMore : Grouped t es) :
      Grouped (ds ++ '_' :: t) (ds ++ es)

/- A sign, or none, and whether it is a minus. -/
inductive Signs : Text → Bool → Prop
  | none : Signs [] false
  | plus : Signs ['+'] false
  | minus : Signs ['-'] true

/- A point with digits after it, or nothing. -/
inductive Fraction : Text → Option Text → Prop
  | none : Fraction [] none
  | some
      {t ds : Text}
      (hDigits : Grouped t ds) :
      Fraction ('.' :: t) (some ds)

/- An exponent, or nothing. -/
inductive Exponent : Text → Option Int → Prop
  | none : Exponent [] none
  | some
      {c : Char}
      {sign ds : Text}
      {negative : Bool}
      (hLetter : c = 'e' ∨ c = 'E')
      (hSign : Signs sign negative)
      (hRun : IsRun ds) :
      Exponent (c :: (sign ++ ds))
        (some (if negative then -(Decimal.natValue ds : Int)
          else Decimal.natValue ds))

/- A sign, digits, a fraction and an exponent. -/
inductive SpellsNumeral : Text → Numeral → Prop
  | parts
      {sign t fraction exponent whole : Text}
      {negative : Bool}
      {f : Option Text}
      {e : Option Int}
      (hSign : Signs sign negative)
      (hWhole : Grouped t whole)
      (hFraction : Fraction fraction f)
      (hExponent : Exponent exponent e) :
      SpellsNumeral (sign ++ (t ++ (fraction ++ exponent)))
        ⟨negative, whole, f, e⟩

/-
  Numbers: digits alone spell an integer, digits with a
  fraction or an exponent a double, and two words spell
  the doubles that are not finite.
-/
inductive SpellsNumber : Text → Number → Prop
  | integer
      {sign t ds : Text}
      {negative : Bool}
      (hSign : Signs sign negative)
      (hDigits : Grouped t ds) :
      SpellsNumber (sign ++ t)
        (.integer
          (if negative then -(Decimal.natValue ds : Int)
            else Decimal.natValue ds))
  | float
      {t : Text}
      {n : Numeral}
      (hNumeral : SpellsNumeral t n)
      (hFloat : n.fraction ≠ none ∨ n.exponent ≠ none) :
      SpellsNumber t (.float n.toFloat)
  | infinity
      {sign : Text}
      {negative : Bool}
      (hSign : Signs sign negative) :
      SpellsNumber (sign ++ "Infinity".toList)
        (.float (signedFloat negative (1.0 / 0.0)))
  | notANumber
      {sign : Text}
      {negative : Bool}
      (hSign : Signs sign negative) :
      SpellsNumber (sign ++ "NaN".toList)
        (.float (0.0 / 0.0))

/- Literals other than arrays. -/
inductive SpellsScalar : Text → Scalar → Prop
  | number
      {t : Text}
      {n : Number}
      (hNumber : SpellsNumber t n) :
      SpellsScalar t (.number n)
  | trueWord :
      SpellsScalar "true".toList (.boolean true)
  | falseWord :
      SpellsScalar "false".toList (.boolean false)
  | string
      {t : Text}
      (hPlain : '"' ∉ t) :
      SpellsScalar (Text.inQuotes t)
        (.string (Text.inQuotes t))

end Grammar

end StackCalc

------------------------------------------------------------
-- Limits And Boundaries
------------------------------------------------------------

namespace StackCalc

namespace Grammar

/-
  No run of digits and underscores in a text holds more
  digits than a number may have.
-/
def HasShortRuns (t : Text) : Prop :=
  ∀ run, run <:+: t →
    (∀ c ∈ run, c.isDigit = true ∨ c = '_') →
    (run.filter Char.isDigit).length ≤ Decimal.maxDigits

theorem HasShortRuns.of_infix
    {s t : Text}
    (h : HasShortRuns t)
    (hPart : s <:+: t) :
    HasShortRuns s :=
  fun run hRun => h run (hRun.trans hPart)

theorem hasShortRuns_of_length_le
    {t : Text}
    (h : t.length ≤ Decimal.maxDigits) :
    HasShortRuns t := by
  intro run hRun _
  have hFilter := List.length_filter_le Char.isDigit run
  have hLength := hRun.length_le
  omega

/-
  Whether a literal may end before a text: it is empty or
  starts with a blank, a comma or a closing bracket.
-/
def isBoundary (rest : Text) : Bool :=
  rest.head?.all fun c =>
    Text.isBlank c || c = ',' || c = ']'

theorem isBoundary_cons_iff
    {c : Char}
    {rest : Text} :
    isBoundary (c :: rest) = true ↔
      Text.isBlank c = true ∨ c = ',' ∨ c = ']' := by
  simp [isBoundary, or_assoc]

/- A character of a word is no blank. -/
theorem isBlank_of_isWordChar
    {c : Char}
    (h : Scalar.isWordChar c = true) :
    Text.isBlank c = false := by
  have hBounds :
      c.toNat = 95 ∨ (48 ≤ c.toNat ∧ c.toNat ≤ 57) ∨
        (65 ≤ c.toNat ∧ c.toNat ≤ 90) ∨
        (97 ≤ c.toNat ∧ c.toNat ≤ 122) := by
    simp only [Scalar.isWordChar, Char.isAlphanum,
      Bool.or_eq_true, decide_eq_true_eq] at h
    rcases h with (hAlpha | hDigit) | rfl
    · rcases Bool.or_eq_true_iff.1 hAlpha with
        hUpper | hLower
      · exact .inr (.inr (.inl (of_decide_eq_true hUpper)))
      · rcases Bool.and_eq_true_iff.1 hLower with
          ⟨hLow, hHigh⟩
        exact .inr (.inr (.inr
          ⟨of_decide_eq_true hLow, of_decide_eq_true hHigh⟩))
    · exact .inr (.inl (Text.bounds_of_isDigit hDigit))
    · exact .inl rfl
  simp [Text.isBlank, Text.blankRanges, CodeRanges.contains]
  omega

/- A word does not go on at a boundary. -/
theorem isWordChar_of_isBoundary
    {c : Char}
    {rest : Text}
    (h : isBoundary (c :: rest) = true) :
    Scalar.isWordChar c = false := by
  rcases isBoundary_cons_iff.1 h with hBlank | rfl | rfl
  · cases hWord : Scalar.isWordChar c with
    | false =>
        rfl
    | true =>
        rw [isBlank_of_isWordChar hWord] at hBlank
        exact hBlank.symm
  · rfl
  · rfl

/- A number does not go on at a boundary. -/
theorem endsNumeral_of_isBoundary
    {rest : Text}
    (h : isBoundary rest = true) :
    Numeral.endsNumeral rest = true := by
  cases rest with
  | nil =>
      rfl
  | cons c rest =>
      have hWord := isWordChar_of_isBoundary h
      have hDigit : c.isDigit = false := by
        simp only [Scalar.isWordChar, Char.isAlphanum,
          Bool.or_eq_false_iff] at hWord
        exact hWord.1.2
      have hNe :
          ∀ d, Scalar.isWordChar d = true → c ≠ d := by
        rintro d hd rfl
        rw [hWord] at hd
        exact Bool.noConfusion hd
      have hPoint : c ≠ '.' := by
        rintro rfl
        rcases isBoundary_cons_iff.1 h with hc | hc | hc
        · exact absurd hc (by decide)
        · exact absurd hc (by decide)
        · exact absurd hc (by decide)
      exact Numeral.endsNumeral_cons_iff.2
        ⟨hDigit, hNe '_' rfl, hPoint, hNe 'e' rfl,
          hNe 'E' rfl⟩

end Grammar

end StackCalc

------------------------------------------------------------
-- Digits
------------------------------------------------------------

namespace StackCalc

namespace Grammar

open Numeral

/- Whether grouped digits may end before a text. -/
def endsDigits (rest : Text) : Bool :=
  rest.head?.all fun c => !(c.isDigit || c = '_')

/- Grouped digits start with a digit. -/
theorem Grouped.exists_eq_cons
    {t ds : Text}
    (h : Grouped t ds) :
    ∃ d r, t = d :: r ∧ d.isDigit = true := by
  have hRun :
      ∀ es u, IsRun es →
        ∃ d r, es ++ u = d :: r ∧ d.isDigit = true := by
    rintro es u ⟨hNe, hDigits⟩
    rcases List.exists_cons_of_ne_nil hNe with ⟨d, r, rfl⟩
    exact ⟨d, r ++ u, rfl, hDigits d List.mem_cons_self⟩
  cases h with
  | run h =>
      have hStart := hRun t [] h
      rwa [List.append_nil] at hStart
  | @group es u fs h hMore =>
      exact hRun es ('_' :: u) h

theorem Grouped.startsWithDigit_append
    {t ds : Text}
    (h : Grouped t ds)
    (rest : Text) :
    startsWithDigit (t ++ rest) = true := by
  rcases h.exists_eq_cons with ⟨d, r, rfl, hd⟩
  simp [startsWithDigit, hd]

/- Grouped digits consist of digits and underscores. -/
theorem Grouped.forall_mem
    {t ds : Text}
    (h : Grouped t ds) :
    ∀ c ∈ t, c.isDigit = true ∨ c = '_' := by
  induction h with
  | run hRun =>
      intro c hc
      exact .inl (hRun.2 c hc)
  | group hRun hMore ih =>
      intro c hc
      rcases List.mem_append.1 hc with hFirst | hRest
      · exact .inl (hRun.2 c hFirst)
      · rcases List.mem_cons.1 hRest with rfl | hLast
        · exact .inr rfl
        · exact ih c hLast

/- Their digits are what is left without underscores. -/
theorem Grouped.filter_isDigit
    {t ds : Text}
    (h : Grouped t ds) :
    t.filter Char.isDigit = ds := by
  induction h with
  | run hRun =>
      rw [List.filter_eq_self]
      exact hRun.2
  | @group es u fs hRun hMore ih =>
      have hFirst : es.filter Char.isDigit = es :=
        List.filter_eq_self.2 hRun.2
      have hUnderscore : '_'.isDigit = false := rfl
      rw [List.filter_append, hFirst, List.filter_cons,
        hUnderscore, ih]
      rfl

/- Short runs have few enough digits to be read. -/
theorem Grouped.length_le_of_hasShortRuns
    {t ds : Text}
    (h : Grouped t ds)
    (hShort : HasShortRuns t) :
    ds.length ≤ Decimal.maxDigits := by
  have hFew := hShort t (List.infix_refl t) h.forall_mem
  rwa [h.filter_isDigit] at hFew

/- Digits are taken up to where they are followed. -/
theorem groupedDigits_digits_append
    {ds : Text}
    (hDigits : ∀ c ∈ ds, c.isDigit = true)
    (rest : Text) :
    groupedDigits true (ds ++ rest) =
      (ds ++ (groupedDigits true rest).1,
        (groupedDigits true rest).2) := by
  induction ds with
  | nil =>
      rfl
  | cons d ds ih =>
      have hd : d.isDigit = true :=
        hDigits d List.mem_cons_self
      have hMore := ih fun c hc =>
        hDigits c (List.mem_cons_of_mem d hc)
      simp only [List.cons_append, groupedDigits, hd, if_true,
        hMore]

theorem groupedDigits_run_append
    {ds : Text}
    (hRun : IsRun ds)
    (b : Bool)
    (rest : Text) :
    groupedDigits b (ds ++ rest) =
      (ds ++ (groupedDigits true rest).1,
        (groupedDigits true rest).2) := by
  rcases hRun with ⟨hNe, hDigits⟩
  rcases List.exists_cons_of_ne_nil hNe with ⟨d, es, rfl⟩
  have hd : d.isDigit = true := hDigits d List.mem_cons_self
  have hMore :=
    groupedDigits_digits_append
      (fun c hc => hDigits c (List.mem_cons_of_mem d hc)) rest
  simp only [List.cons_append, groupedDigits, hd, if_true,
    hMore]

/- All grouped digits are taken, and nothing else. -/
theorem groupedDigits_of_grouped
    {t ds rest : Text}
    (h : Grouped t ds)
    (hEnd : endsDigits rest = true)
    (b : Bool) :
    groupedDigits b (t ++ rest) = (ds, rest) := by
  induction h generalizing b with
  | @run es hRun =>
      have hStop : groupedDigits true rest = ([], rest) := by
        cases rest with
        | nil =>
            rfl
        | cons c rest =>
            have hc : c.isDigit = false ∧ c ≠ '_' := by
              simpa [endsDigits] using hEnd
            simp [groupedDigits, hc]
      rw [groupedDigits_run_append hRun, hStop,
        List.append_nil]
  | @group es u fs hRun hMore ih =>
      have hStart := hMore.startsWithDigit_append rest
      have hUnderscore :
          groupedDigits true ('_' :: (u ++ rest)) =
            groupedDigits false (u ++ rest) := by
        rw [groupedDigits, if_neg (by decide),
          if_pos ⟨rfl, rfl, hStart⟩]
      rw [List.append_assoc, List.cons_append,
        groupedDigits_run_append hRun, hUnderscore, ih]

theorem Grouped.cons
    {d : Char}
    {t ds : Text}
    (hd : d.isDigit = true)
    (h : Grouped t ds) :
    Grouped (d :: t) (d :: ds) := by
  have hRun : ∀ es, IsRun es → IsRun (d :: es) := by
    rintro es ⟨-, hDigits⟩
    exact ⟨List.cons_ne_nil d es,
      List.forall_mem_cons.2 ⟨hd, hDigits⟩⟩
  cases h with
  | run h =>
      exact .run (hRun t h)
  | group h hMore =>
      exact .group (hRun _ h) hMore

theorem isRun_singleton
    {d : Char}
    (hd : d.isDigit = true) :
    IsRun [d] :=
  ⟨List.cons_ne_nil d [], by simpa using hd⟩

/-
  What is taken off a text that starts with a digit are
  grouped digits. Right after a digit there may also be
  nothing to take, or an underscore before more digits.
-/
theorem grouped_of_groupedDigits
    (b : Bool)
    (t : Text) :
    (startsWithDigit t = true →
      ∃ l, t = l ++ (groupedDigits b t).2 ∧
        Grouped l (groupedDigits b t).1) ∧
    (startsWithDigit t = false →
      groupedDigits b t = ([], t) ∨
        ∃ l, t = '_' :: (l ++ (groupedDigits b t).2) ∧
          Grouped l (groupedDigits b t).1) := by
  fun_induction groupedDigits b t with
  | case1 =>
      simp [startsWithDigit]
  | case2 b c rest hc ds r hRest ih =>
      rw [hRest] at ih
      refine ⟨fun _ => ?_, ?_⟩
      · cases hStart : startsWithDigit rest with
        | true =>
            rcases ih.1 hStart with ⟨l, hText, hGrouped⟩
            refine ⟨c :: l, ?_, hGrouped.cons hc⟩
            rw [List.cons_append, ← hText]
        | false =>
            rcases ih.2 hStart with hNone | ⟨l, hText, hGrouped⟩
            · rcases Prod.mk.inj hNone with ⟨rfl, rfl⟩
              exact ⟨[c], rfl, .run (isRun_singleton hc)⟩
            · refine ⟨[c] ++ '_' :: l, ?_,
                .group (isRun_singleton hc) hGrouped⟩
              simpa using hText
      · simp [startsWithDigit, hc]
  | case3 b c rest hc hUnderscore ih =>
      rcases ih.1 hUnderscore.2.2 with ⟨l, hText, hGrouped⟩
      refine ⟨?_, fun _ => .inr ⟨l, ?_, hGrouped⟩⟩
      · simp [startsWithDigit, hc]
      · rw [← hText, hUnderscore.1]
  | case4 b c rest hc hUnderscore =>
      simp [startsWithDigit, hc]

end Grammar

end StackCalc

------------------------------------------------------------
-- Numerals
------------------------------------------------------------

namespace StackCalc

namespace Grammar

open Numeral

/- What is taken for a sign is one. -/
theorem signs_of_takeSign
    (t : Text) :
    ∃ l, t = l ++ (takeSign t).2 ∧
      Signs l (takeSign t).1 := by
  unfold takeSign
  split
  · exact ⟨['-'], rfl, .minus⟩
  · exact ⟨['+'], rfl, .plus⟩
  · exact ⟨[], rfl, .none⟩

/- A sign before a digit is taken off. -/
theorem takeSign_of_signs
    {sign t : Text}
    {negative : Bool}
    (h : Signs sign negative)
    (hStart : startsWithDigit t = true) :
    takeSign (sign ++ t) = (negative, t) := by
  cases h with
  | plus =>
      rfl
  | minus =>
      rfl
  | none =>
      cases t with
      | nil =>
          simp [startsWithDigit] at hStart
      | cons d r =>
          apply takeSign_cons_digit
          simpa [startsWithDigit] using hStart

/- What is taken for a fraction is one. -/
theorem fraction_of_takeFraction
    (t : Text) :
    ∃ l, t = l ++ (takeFraction t).2 ∧
      Fraction l (takeFraction t).1 := by
  unfold takeFraction
  split
  case h_1 rest =>
    split
    case isTrue hStart =>
      rcases (grouped_of_groupedDigits false rest).1 hStart with
        ⟨l, hText, hGrouped⟩
      exact ⟨'.' :: l, congrArg ('.' :: ·) hText,
        .some hGrouped⟩
    case isFalse =>
      exact ⟨[], rfl, .none⟩
  case h_2 =>
    exact ⟨[], rfl, .none⟩

/- Whether a fraction may end before a text. -/
def endsFraction (rest : Text) : Bool :=
  rest.head?.all fun c => !(c.isDigit || c = '_' || c = '.')

theorem endsDigits_of_endsFraction
    {rest : Text}
    (h : endsFraction rest = true) :
    endsDigits rest = true := by
  cases rest with
  | nil =>
      rfl
  | cons c rest =>
      simp only [endsFraction, endsDigits, List.head?_cons,
        Option.all_some, Bool.not_eq_true',
        Bool.or_eq_false_iff] at h ⊢
      exact h.1

/- A fraction is taken off as a whole. -/
theorem takeFraction_of_fraction
    {l rest : Text}
    {f : Option Text}
    (h : Fraction l f)
    (hEnd : endsFraction rest = true) :
    takeFraction (l ++ rest) = (f, rest) := by
  cases h with
  | none =>
      show takeFraction rest = _
      unfold takeFraction
      split
      · simp [endsFraction] at hEnd
      · rfl
  | some hDigits =>
      have hStart := hDigits.startsWithDigit_append rest
      have hTaken :=
        groupedDigits_of_grouped hDigits
          (endsDigits_of_endsFraction hEnd) false
      simp only [List.cons_append, takeFraction, hStart,
        if_true, hTaken]

/- Nothing goes on with digits after a fraction. -/
theorem Fraction.endsDigits_append
    {l rest : Text}
    {f : Option Text}
    (h : Fraction l f)
    (hEnd : endsFraction rest = true) :
    endsDigits (l ++ rest) = true := by
  cases h with
  | none =>
      exact endsDigits_of_endsFraction hEnd
  | some hDigits =>
      rfl

/-
  Characters of one class are cut off a text where the next
  one is not of the class.
-/
theorem takeWhile_dropWhile_append
    {p : Char → Bool}
    {l rest : Text}
    (hClass : ∀ c ∈ l, p c = true)
    (hEnd : ∀ c r, rest = c :: r → p c = false) :
    (l ++ rest).takeWhile p = l ∧
      (l ++ rest).dropWhile p = rest := by
  rw [List.takeWhile_append_of_pos hClass,
    List.dropWhile_append_of_pos hClass]
  cases rest with
  | nil =>
      simp
  | cons c r =>
      simp [hEnd c r rfl]

/- The digits that a text starts with are a run. -/
theorem isRun_takeWhile
    {t : Text}
    (hStart : startsWithDigit t = true) :
    IsRun (t.takeWhile Char.isDigit) := by
  refine ⟨?_, fun c hc => List.all_eq_true.1
    List.all_takeWhile c hc⟩
  cases t with
  | nil =>
      simp [startsWithDigit] at hStart
  | cons d r =>
      have hd : d.isDigit = true := by
        simpa [startsWithDigit] using hStart
      simp [hd]

/- What is taken for an exponent is one. -/
theorem exponent_of_takeExponent
    (t : Text) :
    ∃ l, t = l ++ (takeExponent t).2 ∧
      Exponent l (takeExponent t).1 := by
  cases t with
  | nil =>
      exact ⟨[], rfl, .none⟩
  | cons c rest =>
      simp only [takeExponent]
      split
      case isTrue h =>
        rcases signs_of_takeSign rest with ⟨sign, hText, hSign⟩
        refine ⟨c :: (sign ++ (takeSign rest).2.takeWhile
          Char.isDigit), ?_,
          .some h.1 hSign (isRun_takeWhile h.2)⟩
        rw [List.cons_append, List.append_assoc,
          List.takeWhile_append_dropWhile, ← hText]
      case isFalse =>
        exact ⟨[], rfl, .none⟩

/- An exponent is taken off as a whole. -/
theorem takeExponent_of_exponent
    {l rest : Text}
    {e : Option Int}
    (h : Exponent l e)
    (hEnd : endsNumeral rest = true) :
    takeExponent (l ++ rest) = (e, rest) := by
  cases h with
  | none =>
      exact takeExponent_of_endsNumeral hEnd
  | @some c sign ds negative hLetter hSign hRun =>
      have hStart : startsWithDigit (ds ++ rest) = true :=
        (Grouped.run hRun).startsWithDigit_append rest
      have hTaken := takeSign_of_signs hSign hStart
      have hNoDigit :
          ∀ d r, rest = d :: r → d.isDigit = false := by
        rintro d r rfl
        exact (endsNumeral_cons_iff.1 hEnd).1
      rcases takeWhile_dropWhile_append hRun.2 hNoDigit with
        ⟨hDigits, hRest⟩
      simp only [List.cons_append, List.append_assoc,
        takeExponent, hTaken, hStart, hLetter, and_self,
        if_true, hDigits, hRest]

/- Nothing goes on with a fraction after an exponent. -/
theorem Exponent.endsFraction_append
    {l rest : Text}
    {e : Option Int}
    (h : Exponent l e)
    (hEnd : endsNumeral rest = true) :
    endsFraction (l ++ rest) = true := by
  cases h with
  | none =>
      cases rest with
      | nil =>
          rfl
      | cons c rest =>
          rcases endsNumeral_cons_iff.1 hEnd with
            ⟨hDigit, hLow, hPoint, -⟩
          simp [endsFraction, hDigit, hLow, hPoint]
  | some hLetter hSign hRun =>
      rcases hLetter with rfl | rfl
      · rfl
      · rfl

/- What is read as a numeral spells it. -/
theorem spellsNumeral_of_read
    {t r : Text}
    {n : Numeral}
    (h : Numeral.read t = some (n, r)) :
    ∃ l, t = l ++ r ∧ SpellsNumeral l n := by
  unfold Numeral.read at h
  simp only at h
  split at h
  case isTrue hStart =>
    simp only [Option.some.injEq, Prod.mk.injEq] at h
    rcases h with ⟨rfl, rfl⟩
    rcases signs_of_takeSign t with ⟨sign, hText, hSign⟩
    rcases (grouped_of_groupedDigits false
        (takeSign t).2).1 hStart with ⟨ds, hDigits, hGrouped⟩
    rcases fraction_of_takeFraction
        (groupedDigits false (takeSign t).2).2 with
      ⟨f, hFraction, hSpellsFraction⟩
    rcases exponent_of_takeExponent
        (takeFraction
          (groupedDigits false (takeSign t).2).2).2 with
      ⟨e, hExponent, hSpellsExponent⟩
    refine ⟨sign ++ (ds ++ (f ++ e)), ?_,
      .parts hSign hGrouped hSpellsFraction hSpellsExponent⟩
    rw [List.append_assoc, List.append_assoc,
      List.append_assoc, ← hExponent, ← hFraction, ← hDigits,
      ← hText]
  case isFalse =>
    simp at h

/- What spells a numeral is read as it. -/
theorem read_of_spellsNumeral
    {l rest : Text}
    {n : Numeral}
    (h : SpellsNumeral l n)
    (hEnd : endsNumeral rest = true) :
    Numeral.read (l ++ rest) = some (n, rest) := by
  cases h with
  | @parts sign t fraction exponent whole negative f e
      hSign hWhole hFraction hExponent =>
      have hAfterFraction := hExponent.endsFraction_append hEnd
      have hAfterDigits :=
        hFraction.endsDigits_append hAfterFraction
      have hStart :=
        hWhole.startsWithDigit_append
          (fraction ++ (exponent ++ rest))
      unfold Numeral.read
      simp only [List.append_assoc,
        takeSign_of_signs hSign hStart, hStart, if_true,
        groupedDigits_of_grouped hWhole hAfterDigits,
        takeFraction_of_fraction hFraction hAfterFraction,
        takeExponent_of_exponent hExponent hEnd]

end Grammar

end StackCalc

------------------------------------------------------------
-- Numbers
------------------------------------------------------------

namespace StackCalc

namespace Grammar

open Numeral

/- The number of a numeral is spelled by its text. -/
theorem spellsNumber_of_value?
    {t : Text}
    {n : Numeral}
    {x : Number}
    (h : SpellsNumeral t n)
    (hValue : n.value? = some x) :
    SpellsNumber t x := by
  unfold value? at hValue
  split at hValue
  case isTrue hInteger =>
    simp only [isInteger, Bool.and_eq_true,
      Option.isNone_iff_eq_none] at hInteger
    rcases Option.map_eq_some_iff.1 hValue with ⟨m, hm, rfl⟩
    rcases h with ⟨hSign, hWhole, hFraction, hExponent⟩
    rcases hInteger with ⟨rfl, rfl⟩
    cases hFraction
    cases hExponent
    rw [Decimal.natValue?] at hm
    split at hm
    · rw [← Option.some.inj hm, List.append_nil,
        List.append_nil]
      exact .integer hSign hWhole
    · simp at hm
  case isFalse hInteger =>
    rw [← Option.some.inj hValue]
    refine .float h ?_
    simp only [isInteger, Bool.and_eq_true,
      Option.isNone_iff_eq_none] at hInteger
    exact Decidable.not_and_iff_or_not.1 hInteger

/- A numeral is taken for a number. -/
theorem read_eq_readNumber
    {sign t : Text}
    {negative : Bool}
    (hSign : Signs sign negative)
    (hStart : startsWithDigit t = true) :
    Scalar.read (sign ++ t) =
      Scalar.readNumber (sign ++ t) := by
  cases t with
  | nil =>
      simp [startsWithDigit] at hStart
  | cons d r =>
      have hd : d.isDigit = true := by
        simpa [startsWithDigit] using hStart
      have hWord :
          Scalar.startsWithWord (d :: r) = false := by
        simp [Scalar.startsWithWord,
          Scalar.isWordStart_of_isDigit hd]
      have hQuote : d ≠ '"' := Text.ne_of_isDigit hd rfl
      have hPlus : d ≠ '+' := Text.ne_of_isDigit hd rfl
      have hMinus : d ≠ '-' := Text.ne_of_isDigit hd rfl
      cases hSign with
      | none =>
          simp [Scalar.read, Scalar.isSign, hQuote, hPlus,
            hMinus, Text.isAnyDigit_of_isDigit hd]
      | plus =>
          simp [Scalar.read, Scalar.isSign, hWord]
      | minus =>
          simp [Scalar.read, Scalar.isSign, hWord]

/-
  What spells a numeral is read as its number, unless that
  has too many digits.
-/
theorem read_eq_value?
    {l rest : Text}
    {n : Numeral}
    (h : SpellsNumeral l n)
    (hEnd : endsNumeral rest = true) :
    Scalar.read (l ++ rest) =
      match n.value? with
      | none => .error .tooManyDigits
      | some x => .ok (.number x, rest) := by
  have hNumber :
      Scalar.read (l ++ rest) =
        Scalar.readNumber (l ++ rest) := by
    rcases h with ⟨hSign, hWhole, hFraction, hExponent⟩
    rw [List.append_assoc, List.append_assoc]
    exact read_eq_readNumber hSign
      (hWhole.startsWithDigit_append _)
  cases hValue : n.value? with
  | _ =>
      simp only [hNumber, Scalar.readNumber, hValue,
        read_of_spellsNumeral h hEnd]

theorem read_of_value?
    {l rest : Text}
    {n : Numeral}
    {x : Number}
    (h : SpellsNumeral l n)
    (hValue : n.value? = some x)
    (hEnd : endsNumeral rest = true) :
    Scalar.read (l ++ rest) = .ok (.number x, rest) := by
  rw [read_eq_value? h hEnd, hValue]

end Grammar

end StackCalc

------------------------------------------------------------
-- Words And Strings
------------------------------------------------------------

namespace StackCalc

namespace Grammar

open Scalar

/- Words that denote something spell it. -/
theorem spellsScalar_of_ofWord?
    {sign word : Text}
    {negative : Bool}
    {s : Scalar}
    (hSign : Signs sign negative)
    (h : ofWord? sign word = some s) :
    SpellsScalar (sign ++ word) s := by
  have hMinus : decide (sign = ['-']) = negative := by
    cases hSign with
    | _ =>
        rfl
  unfold ofWord? at h
  rw [hMinus] at h
  split at h
  case isTrue hWord =>
    rw [hWord, ← Option.some.inj h]
    exact .number (.infinity hSign)
  case isFalse =>
    split at h
    case isTrue hWord =>
      rw [hWord, ← Option.some.inj h]
      exact .number (.notANumber hSign)
    case isFalse =>
      split at h
      case isTrue hWord =>
        rw [hWord.1, hWord.2, ← Option.some.inj h]
        exact .trueWord
      case isFalse =>
        split at h
        case isTrue hWord =>
          rw [hWord.1, hWord.2, ← Option.some.inj h]
          exact .falseWord
        case isFalse =>
          simp at h

/- What is read as a word spells what it denotes. -/
theorem spellsScalar_of_readWord
    {whole sign t r : Text}
    {negative : Bool}
    {s : Scalar}
    (hSign : Signs sign negative)
    (h : readWord whole sign t = .ok (s, r)) :
    ∃ l, t = l ++ r ∧ SpellsScalar (sign ++ l) s := by
  unfold readWord at h
  split at h
  case isTrue =>
    simp only at h
    split at h
    case h_1 s' hWord =>
      simp only [Except.ok.injEq, Prod.mk.injEq] at h
      rcases h with ⟨rfl, rfl⟩
      exact ⟨t.takeWhile isWordChar,
        List.takeWhile_append_dropWhile.symm,
        spellsScalar_of_ofWord? hSign hWord⟩
    case h_2 =>
      simp at h
  case isFalse =>
    simp at h

/- A word is read as what it denotes. -/
theorem readWord_of_ofWord?
    {sign word rest : Text}
    {s : Scalar}
    (hStart : startsWithWord word = true)
    (hWord : ∀ c ∈ word, isWordChar c = true)
    (hSpells : ofWord? sign word = some s)
    (hEnd : isBoundary rest = true)
    (whole : Text) :
    readWord whole sign (word ++ rest) = .ok (s, rest) := by
  have hStartRest : startsWithWord (word ++ rest) = true := by
    cases word with
    | nil =>
        simp [startsWithWord] at hStart
    | cons c r =>
        exact hStart
  have hNoWord :
      ∀ c r, rest = c :: r → isWordChar c = false := by
    rintro c r rfl
    exact isWordChar_of_isBoundary hEnd
  rcases takeWhile_dropWhile_append hWord hNoWord with
    ⟨hTaken, hRest⟩
  simp only [readWord, hStartRest, if_true, hTaken, hRest,
    hSpells]

/- What is read as a string is one. -/
theorem spellsScalar_of_readString
    {whole t r : Text}
    {s : Scalar}
    (h : readString whole t = .ok (s, r)) :
    ∃ l, '"' :: t = l ++ r ∧ SpellsScalar l s := by
  unfold readString at h
  split at h
  case h_1 =>
    simp at h
  case h_2 c r' hDrop =>
    simp only [Except.ok.injEq, Prod.mk.injEq] at h
    rcases h with ⟨rfl, rfl⟩
    have hQuote : c = '"' := by
      have hHead :=
        List.head?_dropWhile_not (fun c => decide (c ≠ '"')) t
      rw [hDrop] at hHead
      simpa using hHead
    refine ⟨Text.inQuotes (t.takeWhile (· ≠ '"')), ?_,
      .string ?_⟩
    · have hText := List.takeWhile_append_dropWhile
        (p := fun c => decide (c ≠ '"')) (l := t)
      rw [hDrop, hQuote] at hText
      simpa [Text.inQuotes] using hText.symm
    · intro hMem
      have hNot := List.all_eq_true.1 List.all_takeWhile _ hMem
      simp at hNot

/- A string is read as it stands. -/
theorem readString_append
    {t : Text}
    (hPlain : '"' ∉ t)
    (whole rest : Text) :
    readString whole (t ++ '"' :: rest) =
      .ok (.string (Text.inQuotes t), rest) := by
  have hAll : ∀ c ∈ t, decide (c ≠ '"') = true := by
    intro c hc
    apply decide_eq_true
    rintro rfl
    exact hPlain hc
  have hQuote :
      ∀ c r, '"' :: rest = c :: r →
        decide (c ≠ '"') = false := by
    rintro c r ⟨⟩
    rfl
  rcases takeWhile_dropWhile_append hAll hQuote with
    ⟨hTaken, hRest⟩
  simp only [readString, hTaken, hRest]

end Grammar

end StackCalc

------------------------------------------------------------
-- Scalars
------------------------------------------------------------

namespace StackCalc

namespace Grammar

open Scalar

/- What is read as a scalar spells it. -/
theorem spellsScalar_of_read
    {t r : Text}
    {s : Scalar}
    (h : Scalar.read t = .ok (s, r)) :
    ∃ l, t = l ++ r ∧ SpellsScalar l s := by
  unfold Scalar.read at h
  split at h
  case h_1 =>
    simp at h
  case h_2 c rest =>
    split at h
    case isTrue hQuote =>
      rw [hQuote]
      exact spellsScalar_of_readString h
    case isFalse =>
      split at h
      case isTrue hSign =>
        have hSigns : ∃ b, Signs [c] b := by
          simp only [isSign, Bool.and_eq_true, Bool.or_eq_true,
            decide_eq_true_eq] at hSign
          rcases hSign.1 with rfl | rfl
          · exact ⟨false, .plus⟩
          · exact ⟨true, .minus⟩
        rcases hSigns with ⟨b, hSigns⟩
        rcases spellsScalar_of_readWord hSigns h with
          ⟨l, hText, hSpells⟩
        exact ⟨c :: l, congrArg (c :: ·) hText, hSpells⟩
      case isFalse =>
        split at h
        case isTrue =>
          unfold readNumber at h
          split at h
          case h_1 =>
            simp at h
          case h_2 n r' hRead =>
            split at h
            case h_1 =>
              simp at h
            case h_2 x hValue =>
              simp only [Except.ok.injEq, Prod.mk.injEq] at h
              rcases h with ⟨rfl, rfl⟩
              rcases spellsNumeral_of_read hRead with
                ⟨l, hText, hSpells⟩
              exact ⟨l, hText,
                .number (spellsNumber_of_value? hSpells hValue)⟩
        case isFalse =>
          split at h
          case isTrue =>
            exact spellsScalar_of_readWord .none h
          case isFalse =>
            simp at h

/-
  A word, signed or not, is read as what it denotes. Its
  first character tells it from the other literals.
-/
theorem read_of_ofWord?
    {c : Char}
    {sign word rest : Text}
    {negative : Bool}
    {s : Scalar}
    (hSign : Signs sign negative)
    (hOther :
      (c = '"' || isSign c || Text.isAnyDigit c) = false)
    (hLetter : Text.isLetter c = true)
    (hStart : isWordStart c = true)
    (hWord : (c :: word).all isWordChar = true)
    (hSpells : ofWord? sign (c :: word) = some s)
    (hEnd : isBoundary rest = true) :
    Scalar.read (sign ++ (c :: word ++ rest)) =
      .ok (s, rest) := by
  have hStartRest :
      startsWithWord (c :: (word ++ rest)) = true := by
    simp [startsWithWord, hStart]
  have hRead :
      ∀ whole, readWord whole sign (c :: (word ++ rest)) =
        .ok (s, rest) :=
    readWord_of_ofWord? (by simp [startsWithWord, hStart])
      (List.all_eq_true.1 hWord) hSpells hEnd
  simp only [Bool.or_eq_false_iff, decide_eq_false_iff_not]
    at hOther
  cases hSign with
  | none =>
      simp [Scalar.read, hOther, hLetter, hRead]
  | plus =>
      simp [Scalar.read, isSign, hStartRest, hRead]
  | minus =>
      simp [Scalar.read, isSign, hStartRest, hRead]

/- What spells a double is read as it. -/
theorem read_of_spellsFloat
    {l rest : Text}
    {x : Float}
    (h : SpellsNumber l (.float x))
    (hEnd : isBoundary rest = true) :
    Scalar.read (l ++ rest) =
      .ok (.number (.float x), rest) := by
  have hEndNumeral := endsNumeral_of_isBoundary hEnd
  cases h with
  | @float l n hNumeral hFloat =>
      have hNot : n.isInteger = false := by
        simpa [Numeral.isInteger, Decidable.imp_iff_not_or,
          Option.ne_none_iff_isSome] using hFloat
      apply read_of_value? hNumeral ?_ hEndNumeral
      simp [Numeral.value?, hNot]
  | @infinity sign negative hSign =>
      have hMinus : decide (sign = ['-']) = negative := by
        cases hSign with
        | _ =>
            rfl
      have hSpells :
          ofWord? sign "Infinity".toList =
            some (.number (.float
              (signedFloat negative (1.0 / 0.0)))) := by
        rw [ofWord?, if_pos rfl, hMinus]
      rw [List.append_assoc]
      exact read_of_ofWord? hSign (by decide) (by decide)
        (by decide) (by decide) hSpells hEnd
  | @notANumber sign negative hSign =>
      rw [List.append_assoc]
      exact read_of_ofWord? hSign (by decide) (by decide)
        (by decide) (by decide) rfl hEnd

/- A sign is no digit. -/
theorem Signs.filter_append
    {sign : Text}
    {negative : Bool}
    (h : Signs sign negative)
    (t : Text) :
    (sign ++ t).filter Char.isDigit =
      t.filter Char.isDigit := by
  cases h with
  | _ =>
      rfl

/-
  What spells an integer is read as it, unless it has too
  many digits.
-/
theorem read_of_spellsInteger
    {l rest : Text}
    {z : Int}
    (h : SpellsNumber l (.integer z))
    (hEnd : isBoundary rest = true) :
    Scalar.read (l ++ rest) =
      if (l.filter Char.isDigit).length ≤ Decimal.maxDigits
      then .ok (.number (.integer z), rest)
      else .error .tooManyDigits := by
  cases h with
  | @integer sign t ds negative hSign hDigits =>
      have hNumeral :
          SpellsNumeral (sign ++ t)
            ⟨negative, ds, none, none⟩ := by
        have hParts :=
          SpellsNumeral.parts hSign hDigits .none .none
        rwa [List.append_nil, List.append_nil] at hParts
      rw [read_eq_value? hNumeral
          (endsNumeral_of_isBoundary hEnd),
        hSign.filter_append, hDigits.filter_isDigit]
      by_cases hFew : ds.length ≤ Decimal.maxDigits
      · simp [Numeral.value?, Numeral.isInteger,
          Decimal.natValue?, hFew]
      · simp [Numeral.value?, Numeral.isInteger,
          Decimal.natValue?, hFew]

/- What spells a number is read as it. -/
theorem read_of_spellsNumber
    {l rest : Text}
    {x : Number}
    (h : SpellsNumber l x)
    (hShort : HasShortRuns l)
    (hEnd : isBoundary rest = true) :
    Scalar.read (l ++ rest) = .ok (.number x, rest) := by
  cases x with
  | integer z =>
      have hFew :
          (l.filter Char.isDigit).length ≤
            Decimal.maxDigits := by
        cases h with
        | @integer sign t ds negative hSign hDigits =>
            rw [hSign.filter_append, hDigits.filter_isDigit]
            exact hDigits.length_le_of_hasShortRuns
              (hShort.of_infix
                (List.suffix_append sign t).isInfix)
      rw [read_of_spellsInteger h hEnd, if_pos hFew]
  | float x =>
      exact read_of_spellsFloat h hEnd

/- What spells a scalar is read as it. -/
theorem read_of_spellsScalar
    {l rest : Text}
    {s : Scalar}
    (h : SpellsScalar l s)
    (hShort : HasShortRuns l)
    (hEnd : isBoundary rest = true) :
    Scalar.read (l ++ rest) = .ok (s, rest) := by
  cases h with
  | number hNumber =>
      exact read_of_spellsNumber hNumber hShort hEnd
  | trueWord =>
      exact read_of_ofWord? .none (by decide) (by decide)
        (by decide) (by decide) rfl hEnd
  | falseWord =>
      exact read_of_ofWord? .none (by decide) (by decide)
        (by decide) (by decide) rfl hEnd
  | @string t hPlain =>
      have hText :
          Text.inQuotes t ++ rest =
            '"' :: (t ++ '"' :: rest) := by
        simp [Text.inQuotes]
      rw [hText, Scalar.read, if_pos rfl,
        readString_append hPlain]

end Grammar

end StackCalc
