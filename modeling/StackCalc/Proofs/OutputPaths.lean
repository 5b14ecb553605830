import StackCalc.CommandLine.Path
import Mathlib.Data.List.Infix
import Mathlib.Data.List.TakeWhile
import Mathlib.Data.Nat.Find

/-
  Where the result of a program is written by default.

  A program whose name holds three digits before `.txt` is
  numbered, and its result goes to the output of the first
  such number, in no directory. The result of any other
  program stands beside it, under a name of its own: what
  follows the last dot of a name holds no dot, and what
  follows the stem of the new name does.

  Main declarations:
    * `Path.IsNormal`
    * `Path.ofText_text`
    * `Path.FirstNumber`
    * `Path.number?_eq_some_iff`
    * `Path.IsStem`
    * `Path.defaultOutput?_overwrites`
-/

------------------------------------------------------------
-- Normal Paths
------------------------------------------------------------

namespace StackCalc

namespace Path

/-
  A path as it is read from a text: it starts with at most
  two slashes, and each of its names has a character, is no
  single dot and holds no slash.
-/
structure IsNormal (p : Path) : Prop where
  root :
    p.root = [] ∨ p.root = "/".toList ∨ p.root = "//".toList
  parts :
    ∀ part ∈ p.parts, part ≠ [] ∧ part ≠ ['.'] ∧ '/' ∉ part

theorem slash_not_mem_segments
    (t : Text) :
    ∀ s ∈ (segments t).1 :: (segments t).2, '/' ∉ s := by
  induction t with
  | nil =>
      simp [segments]
  | cons c t ih =>
      simp only [segments]
      split
      case isTrue =>
        rw [List.forall_mem_cons]
        exact ⟨List.not_mem_nil, ih⟩
      case isFalse hc =>
        rw [List.forall_mem_cons] at ih ⊢
        refine ⟨?_, ih.2⟩
        rw [List.mem_cons, not_or]
        exact ⟨fun h => hc h.symm, ih.1⟩

/- Whatever is read as a path is normal. -/
theorem isNormal_ofText
    (t : Text) :
    (ofText t).IsNormal := by
  constructor
  · simp only [ofText]
    unfold rootOf
    split
    · exact .inr (.inl rfl)
    · exact .inr (.inr rfl)
    · exact .inr (.inl rfl)
    · exact .inl rfl
  · intro part hPart
    simp only [ofText, List.mem_filter, Bool.and_eq_true,
      Bool.not_eq_true', List.isEmpty_eq_false_iff,
      decide_eq_true_eq] at hPart
    rcases hPart with ⟨hMem, hNonempty, hDot⟩
    exact ⟨hNonempty, hDot,
      slash_not_mem_segments t part hMem⟩

theorem segments_of_not_mem
    {t : Text}
    (h : '/' ∉ t) :
    segments t = (t, []) := by
  induction t with
  | nil =>
      rfl
  | cons c t ih =>
      rw [List.mem_cons, not_or] at h
      simp only [segments, ih h.2, if_neg (Ne.symm h.1)]

theorem segments_append_slash
    {s : Text}
    (h : '/' ∉ s)
    (t : Text) :
    segments (s ++ '/' :: t) =
      (s, (segments t).1 :: (segments t).2) := by
  induction s with
  | nil =>
      simp [segments]
  | cons c s ih =>
      rw [List.mem_cons, not_or] at h
      simp only [List.cons_append, segments, ih h.2,
        if_neg (Ne.symm h.1)]

/- The names of a path are the segments of its text. -/
theorem segments_joinWith
    {part : Text}
    {parts : List Text}
    (h : ∀ s ∈ part :: parts, '/' ∉ s) :
    segments (Text.joinWith ['/'] (part :: parts)) =
      (part, parts) := by
  induction parts generalizing part with
  | nil =>
      exact segments_of_not_mem (h part List.mem_cons_self)
  | cons next parts ih =>
      rw [List.forall_mem_cons] at h
      rw [Text.joinWith_cons_cons, List.singleton_append,
        segments_append_slash h.1, ih h.2]

theorem rootOf_of_ne_slash
    {t : Text}
    (h : t.head? ≠ some '/') :
    rootOf t = [] ∧ rootOf ('/' :: t) = "/".toList ∧
      rootOf ('/' :: '/' :: t) = "//".toList := by
  cases t with
  | nil =>
      exact ⟨rfl, rfl, rfl⟩
  | cons c t =>
      have hc : c ≠ '/' := by
        simpa using h
      simp [rootOf, hc]

theorem parts_ofText_slash
    (t : Text) :
    (ofText ('/' :: t)).parts = (ofText t).parts := by
  simp [ofText, segments]

/- The names of a normal path are read back. -/
theorem IsNormal.parts_ofText
    {p : Path}
    (h : p.IsNormal) :
    (ofText (Text.joinWith ['/'] p.parts)).parts =
      p.parts := by
  cases hParts : p.parts with
  | nil =>
      rfl
  | cons part parts =>
      have hEach := h.parts
      rw [hParts] at hEach
      simp only [ofText]
      rw [segments_joinWith fun s hs => (hEach s hs).2.2,
        List.filter_eq_self]
      intro s hs
      rcases hEach s hs with ⟨hNonempty, hDot, -⟩
      simp [hNonempty, hDot]

theorem IsNormal.head?_ne_slash
    {p : Path}
    (h : p.IsNormal) :
    (Text.joinWith ['/'] p.parts).head? ≠ some '/' := by
  cases hParts : p.parts with
  | nil =>
      exact nofun
  | cons part parts =>
      have hPart : part ∈ p.parts := by
        rw [hParts]
        exact List.mem_cons_self
      rcases h.parts part hPart with ⟨hNonempty, -, hSlash⟩
      rcases List.exists_cons_of_ne_nil hNonempty with
        ⟨c, t, rfl⟩
      have hc : c ≠ '/' := by
        rintro rfl
        exact hSlash List.mem_cons_self
      cases parts with
      | nil =>
          simpa [Text.joinWith] using hc
      | cons next parts =>
          simpa [Text.joinWith] using hc

/- A normal path is read back from its text. -/
theorem ofText_text
    {p : Path}
    (h : p.IsNormal) :
    ofText p.text = p := by
  rcases rootOf_of_ne_slash h.head?_ne_slash with
    ⟨hNone, hOne, hTwo⟩
  have hParts := h.parts_ofText
  have hRoot := h.root
  rcases p with ⟨root, parts⟩
  have hSame :
      ∀ q : Path, q.root = root → q.parts = parts →
        q = ⟨root, parts⟩ := by
    rintro ⟨root', parts'⟩ rfl rfl
    rfl
  rcases hRoot with rfl | rfl | rfl
  · cases parts with
    | nil =>
        decide
    | cons part parts =>
        exact hSame _ hNone hParts
  · apply hSame _ hOne
    exact (parts_ofText_slash _).trans hParts
  · apply hSame _ hTwo
    exact (parts_ofText_slash _).trans
      ((parts_ofText_slash _).trans hParts)

/- A name with a slash nowhere is a path of its own. -/
theorem ofText_name
    {name : Text}
    (hNonempty : name ≠ [])
    (hDot : name ≠ ['.'])
    (hSlash : '/' ∉ name) :
    ofText name = ⟨[], [name]⟩ := by
  have hNormal : IsNormal ⟨[], [name]⟩ := by
    refine ⟨.inl rfl, ?_⟩
    rintro part hPart
    rw [List.mem_singleton.1 hPart]
    exact ⟨hNonempty, hDot, hSlash⟩
  exact ofText_text hNormal

end Path

end StackCalc

------------------------------------------------------------
-- Numbers In Names
------------------------------------------------------------

namespace StackCalc

namespace Path

/- Three digits. -/
def IsNumber (ds : Text) : Prop :=
  ds.length = 3 ∧ ∀ d ∈ ds, d.isDigit = true

instance
    (ds : Text) :
    Decidable (IsNumber ds) :=
  decidable_of_iff
    (ds.length = 3 ∧ ds.all Char.isDigit = true)
    (by rw [List.all_eq_true, IsNumber])

/- A number stands before `.txt` at a position of a name. -/
structure NumberAt
    (name : Text)
    (pos : Nat)
    (ds : Text) : Prop where
  number : IsNumber ds
  ending : ds ++ ".txt".toList <+: name.drop pos

/- A number stands somewhere in a name. -/
def IsNumbered (name : Text) : Prop :=
  ∃ pos ds, NumberAt name pos ds

/- The number that stands before all others in a name. -/
def FirstNumber (name ds : Text) : Prop :=
  ∃ pos, NumberAt name pos ds ∧
    ∀ earlier < pos, ∀ other, ¬ NumberAt name earlier other

theorem IsNumbered.exists_firstNumber
    {name : Text}
    (h : IsNumbered name) :
    ∃ ds, FirstNumber name ds := by
  classical
  rcases Nat.find_spec h with ⟨ds, hNumber⟩
  refine ⟨ds, Nat.find h, hNumber, ?_⟩
  intro earlier hLt other hOther
  exact Nat.find_min h hLt ⟨other, hOther⟩

theorem numberAt_succ_iff
    {c : Char}
    {name ds : Text}
    {pos : Nat} :
    NumberAt (c :: name) (pos + 1) ds ↔
      NumberAt name pos ds :=
  ⟨fun h => ⟨h.number, h.ending⟩,
    fun h => ⟨h.number, h.ending⟩⟩

/- A number starts with a digit of the name. -/
theorem NumberAt.exists_digit
    {name ds : Text}
    {pos : Nat}
    (h : NumberAt name pos ds) :
    ∃ d, name[pos]? = some d ∧ d.isDigit = true := by
  rcases h with ⟨⟨hLength, hDigits⟩, rest, hRest⟩
  cases ds with
  | nil =>
      simp at hLength
  | cons d ds =>
      refine ⟨d, ?_, hDigits d List.mem_cons_self⟩
      rw [← List.head?_drop, ← hRest]
      rfl

theorem leadingNumber?_eq_some_iff
    {name ds : Text} :
    leadingNumber? name = some ds ↔ NumberAt name 0 ds := by
  constructor
  · intro h
    unfold leadingNumber? at h
    simp only at h
    split at h
    case isTrue hLeads =>
      rcases hLeads with ⟨hLength, hDigits, hEnding⟩
      rw [← Option.some.inj h]
      refine ⟨⟨hLength, List.all_eq_true.1 hDigits⟩, ?_⟩
      rw [List.isPrefixOf_iff_prefix] at hEnding
      rcases hEnding with ⟨rest, hRest⟩
      refine ⟨rest, ?_⟩
      rw [List.append_assoc, hRest]
      exact List.take_append_drop 3 name
    case isFalse =>
      simp at h
  · rintro ⟨⟨hLength, hDigits⟩, rest, hRest⟩
    have hTake : name.take 3 = ds := by
      rw [List.drop_zero] at hRest
      rw [← hRest, List.append_assoc, ← hLength,
        List.take_left]
    have hDrop : name.drop 3 = ".txt".toList ++ rest := by
      rw [List.drop_zero] at hRest
      rw [← hRest, List.append_assoc, ← hLength,
        List.drop_left]
    simp only [leadingNumber?, hTake, hDrop]
    rw [if_pos]
    exact ⟨hLength, List.all_eq_true.2 hDigits,
      List.isPrefixOf_iff_prefix.2 (List.prefix_append _ _)⟩

/- The number that is found is the first one. -/
theorem number?_eq_some_iff
    {name ds : Text} :
    number? name = some ds ↔ FirstNumber name ds := by
  induction name with
  | nil =>
      simp only [number?, reduceCtorEq, false_iff]
      rintro ⟨pos, hNumber, -⟩
      rcases hNumber.exists_digit with ⟨d, hd, -⟩
      simp at hd
  | cons c name ih =>
      cases hLeading : leadingNumber? (c :: name) with
      | some found =>
          have hFound :=
            leadingNumber?_eq_some_iff.1 hLeading
          simp only [number?, hLeading, Option.some.injEq]
          constructor
          · rintro rfl
            exact ⟨0, hFound, fun earlier hLt =>
              absurd hLt (Nat.not_lt_zero earlier)⟩
          · rintro ⟨pos, hNumber, hFirst⟩
            have hZero : pos = 0 := by
              by_contra hPos
              exact hFirst 0 (Nat.pos_of_ne_zero hPos) found
                hFound
            rw [hZero, ← leadingNumber?_eq_some_iff,
              hLeading] at hNumber
            exact Option.some.inj hNumber
      | none =>
          have hNotHere : ∀ other,
              ¬ NumberAt (c :: name) 0 other := by
            intro other hOther
            rw [← leadingNumber?_eq_some_iff,
              hLeading] at hOther
            simp at hOther
          simp only [number?, hLeading, ih]
          constructor
          · rintro ⟨pos, hNumber, hFirst⟩
            refine ⟨pos + 1, numberAt_succ_iff.2 hNumber, ?_⟩
            intro earlier hLt other
            cases earlier with
            | zero =>
                exact hNotHere other
            | succ earlier =>
                rw [numberAt_succ_iff]
                exact hFirst earlier (by omega) other
          · rintro ⟨pos, hNumber, hFirst⟩
            cases pos with
            | zero =>
                exact absurd hNumber (hNotHere ds)
            | succ pos =>
                refine ⟨pos, numberAt_succ_iff.1 hNumber, ?_⟩
                intro earlier hLt other hOther
                exact hFirst (earlier + 1) (by omega) other
                  (numberAt_succ_iff.2 hOther)

theorem number?_eq_none_iff
    {name : Text} :
    number? name = none ↔ ¬ IsNumbered name := by
  constructor
  · intro hNone hNumbered
    rcases hNumbered.exists_firstNumber with ⟨ds, hFirst⟩
    rw [← number?_eq_some_iff, hNone] at hFirst
    simp at hFirst
  · intro hNot
    rw [Option.eq_none_iff_forall_ne_some]
    intro ds hSome
    rcases number?_eq_some_iff.1 hSome with
      ⟨pos, hNumber, -⟩
    exact hNot ⟨pos, ds, hNumber⟩

/- At most one number is the first. -/
theorem FirstNumber.unique
    {name ds ds' : Text}
    (h : FirstNumber name ds)
    (h' : FirstNumber name ds') :
    ds = ds' := by
  rw [← number?_eq_some_iff] at h h'
  exact Option.some.inj (h.symm.trans h')

theorem FirstNumber.isNumber
    {name ds : Text}
    (h : FirstNumber name ds) :
    IsNumber ds := by
  rcases h with ⟨pos, hHere, -⟩
  exact hHere.number

theorem FirstNumber.isNumbered
    {name ds : Text}
    (h : FirstNumber name ds) :
    IsNumbered name := by
  rcases h with ⟨pos, hHere, -⟩
  exact ⟨pos, ds, hHere⟩

/- A number after characters that are no digits is first. -/
theorem firstNumber_append
    {front ds : Text}
    (hFront : ∀ d ∈ front, d.isDigit = false)
    (h : IsNumber ds) :
    FirstNumber (front ++ (ds ++ ".txt".toList)) ds := by
  have hHere :
      NumberAt (front ++ (ds ++ ".txt".toList)) front.length
        ds := by
    refine ⟨h, ?_⟩
    rw [List.drop_left]
  refine ⟨front.length, hHere, ?_⟩
  intro earlier hLt other hOther
  rcases hOther.exists_digit with ⟨d, hd, hDigit⟩
  rw [List.getElem?_append_left hLt] at hd
  rw [hFront d (List.mem_of_getElem? hd)] at hDigit
  exact Bool.noConfusion hDigit

/- The name of the output with a number. -/
def outputName (ds : Text) : Text :=
  "output-".toList ++ (ds ++ ".txt".toList)

theorem firstNumber_outputName
    {ds : Text}
    (h : IsNumber ds) :
    FirstNumber (outputName ds) ds :=
  firstNumber_append (by simp) h

end Path

end StackCalc

------------------------------------------------------------
-- Stems
------------------------------------------------------------

namespace StackCalc

namespace Path

/-
  The stem of a name: what stands before its last dot, if
  that has something on both sides, and the whole name
  otherwise.
-/
inductive IsStem : Text → Text → Prop
  | front
      {front ending : Text}
      (hFront : front ≠ [])
      (hEnding : ending ≠ [])
      (hLast : '.' ∉ ending) :
      IsStem (front ++ '.' :: ending) front
  | whole
      {name : Text}
      (hWhole :
        ∀ front ending, name = front ++ '.' :: ending →
          '.' ∉ ending → front = [] ∨ ending = []) :
      IsStem name name

theorem ne_dot_of_mem_reverse
    {t : Text}
    (h : '.' ∉ t) :
    ∀ c ∈ t.reverse, decide (c ≠ '.') = true := by
  intro c hc
  rw [decide_eq_true_eq]
  rintro rfl
  exact h (List.mem_reverse.1 hc)

theorem stem_of_not_mem
    {name : Text}
    (h : '.' ∉ name) :
    stem name = name := by
  simp only [stem,
    List.dropWhile_eq_nil_iff.2 (ne_dot_of_mem_reverse h)]

/- A dot at the end of a name or at its start stays. -/
theorem stem_append_dot
    {front ending : Text}
    (h : '.' ∉ ending) :
    stem (front ++ '.' :: ending) =
      if ending = [] ∨ front = [] then front ++ '.' :: ending
      else front := by
  have hReverse :
      (front ++ '.' :: ending).reverse =
        ending.reverse ++ '.' :: front.reverse := by
    simp
  have hPlain := ne_dot_of_mem_reverse h
  have hTake :
      (ending.reverse ++ '.' :: front.reverse).takeWhile
        (· ≠ '.') = ending.reverse := by
    rw [List.takeWhile_append_of_pos hPlain]
    simp
  have hDrop :
      (ending.reverse ++ '.' :: front.reverse).dropWhile
        (· ≠ '.') = '.' :: front.reverse := by
    rw [List.dropWhile_append_of_pos hPlain]
    simp
  simp only [stem, hReverse, hTake, hDrop]
  simp

theorem isStem_stem
    (name : Text) :
    IsStem name (stem name) := by
  by_cases hWhole :
      ∀ front ending, name = front ++ '.' :: ending →
        '.' ∉ ending → front = [] ∨ ending = []
  · have hStem : stem name = name := by
      by_cases hDot : '.' ∈ name
      · rcases List.eq_append_cons_of_mem
            (List.mem_reverse.2 hDot) with
          ⟨ending, front, hSplit, hLast⟩
        have hName :
            name = front.reverse ++ '.' :: ending.reverse := by
          simpa using congrArg List.reverse hSplit
        have hLast' : '.' ∉ ending.reverse := by
          simpa using hLast
        rw [hName, stem_append_dot hLast',
          if_pos (hWhole _ _ hName hLast').symm]
      · exact stem_of_not_mem hDot
    rw [hStem]
    exact .whole hWhole
  · push Not at hWhole
    rcases hWhole with
      ⟨front, ending, rfl, hLast, hFront, hEnding⟩
    rw [stem_append_dot hLast, if_neg (by simp [hFront, hEnding])]
    exact .front hFront hEnding hLast

/- The name beside a program is not the program's own. -/
theorem IsStem.append_ne
    {name s : Text}
    (h : IsStem name s) :
    s ++ ".out.txt".toList ≠ name := by
  cases h with
  | @front s ending hFront hEnding hLast =>
      intro hEq
      have hSame := List.append_cancel_left hEq
      rcases List.cons.inj hSame with ⟨-, hText⟩
      rw [← hText] at hLast
      exact absurd hLast (by decide)
  | whole hWhole =>
      intro hEq
      have hLength := congrArg List.length hEq
      rw [List.length_append] at hLength
      have hSome : 0 < ".out.txt".toList.length := by
        decide
      omega

end Path

end StackCalc

------------------------------------------------------------
-- Default Output
------------------------------------------------------------

namespace StackCalc

namespace Path

/- The path of the directory that a file is in. -/
def directory (p : Path) : Path :=
  ⟨p.root, p.parts.dropLast⟩

@[simp] theorem directory_withName
    (p : Path)
    (name : Text) :
    (p.withName name).directory = p.directory := by
  simp [directory, withName]

@[simp] theorem name?_withName
    (p : Path)
    (name : Text) :
    (p.withName name).name? = some name := by
  simp [name?, withName]

/- The path of an output is told by its text. -/
theorem text_eq_outputName_iff
    {p : Path}
    {ds : Text}
    (hNormal : p.IsNormal)
    (hNumber : IsNumber ds) :
    p.text = outputName ds ↔ p = ⟨[], [outputName ds]⟩ := by
  have hNonempty : outputName ds ≠ [] := nofun
  have hDot : outputName ds ≠ ['.'] := nofun
  have hSlash : '/' ∉ outputName ds := by
    have hFront : '/' ∉ "output-".toList := by decide
    have hEnding : '/' ∉ ".txt".toList := by decide
    have hDigits : '/' ∉ ds := by
      intro hMem
      exact absurd (hNumber.2 '/' hMem) (by decide)
    unfold outputName
    simp only [List.mem_append, not_or]
    exact ⟨hFront, hDigits, hEnding⟩
  constructor
  · intro hText
    rw [← ofText_text hNormal, hText,
      ofText_name hNonempty hDot hSlash]
  · rintro rfl
    simp [text, Text.joinWith]

/- A program that is an output has the number of it. -/
theorem firstNumber_of_text_eq
    {p : Path}
    {name ds : Text}
    (hNormal : p.IsNormal)
    (hName : p.name? = some name)
    (hNumber : IsNumber ds)
    (hText : p.text = outputName ds) :
    FirstNumber name ds := by
  rw [text_eq_outputName_iff hNormal hNumber] at hText
  have hSame : some (outputName ds) = some name := by
    rw [← hName, hText]
    rfl
  rw [← Option.some.inj hSame]
  exact firstNumber_outputName hNumber

/- A numbered program has the output of its first number. -/
theorem defaultOutput?_of_firstNumber
    {p : Path}
    {name ds : Text}
    (hName : p.name? = some name)
    (hFirst : FirstNumber name ds) :
    p.defaultOutput? = some ⟨[], [outputName ds]⟩ := by
  unfold outputName
  simp [defaultOutput?, hName, number?_eq_some_iff.2 hFirst]

/- Any other program has one beside it. -/
theorem defaultOutput?_of_not_isNumbered
    {p : Path}
    {name : Text}
    (hName : p.name? = some name)
    (hPlain : ¬ IsNumbered name) :
    p.defaultOutput? =
      some (p.withName (stem name ++ ".out.txt".toList)) := by
  simp [defaultOutput?, hName, number?_eq_none_iff.2 hPlain]

theorem withName_stem_ne
    {p : Path}
    {name : Text}
    (hName : p.name? = some name) :
    p.withName (stem name ++ ".out.txt".toList) ≠ p := by
  intro hEq
  have hNames := congrArg name? hEq
  rw [name?_withName, hName] at hNames
  exact (isStem_stem name).append_ne (Option.some.inj hNames)

/-
  A program with a name has a default output. It is the
  program itself exactly if that is, in no directory, the
  output of some number. A program without a number never
  is its own output, which is in the same directory.
-/
theorem defaultOutput?_overwrites
    {p : Path}
    {name : Text}
    (hNormal : p.IsNormal)
    (hName : p.name? = some name) :
    ∃ q, p.defaultOutput? = some q ∧
      (q = p ↔
        ∃ ds, IsNumber ds ∧ p.text = outputName ds) ∧
      (∀ ds, FirstNumber name ds →
        q.text = outputName ds) ∧
      (¬ IsNumbered name →
        q ≠ p ∧ q.directory = p.directory ∧
          ∃ s, IsStem name s ∧
            q.name? = some (s ++ ".out.txt".toList)) := by
  by_cases hNumbered : IsNumbered name
  · rcases hNumbered.exists_firstNumber with ⟨ds, hFirst⟩
    have hNumber := hFirst.isNumber
    refine ⟨_, defaultOutput?_of_firstNumber hName hFirst,
      ⟨?_, ?_⟩, ?_, ?_⟩
    · rintro rfl
      exact ⟨ds, hNumber, rfl⟩
    · rintro ⟨ds', hNumber', hText⟩
      have hSame := hFirst.unique
        (firstNumber_of_text_eq hNormal hName hNumber' hText)
      rw [← hSame,
        text_eq_outputName_iff hNormal hNumber] at hText
      exact hText.symm
    · intro ds' hFirst'
      rw [hFirst'.unique hFirst]
      rfl
    · exact fun hPlain => absurd hNumbered hPlain
  · have hOther := withName_stem_ne hName
    refine ⟨_, defaultOutput?_of_not_isNumbered hName hNumbered,
      ⟨?_, ?_⟩, ?_, ?_⟩
    · exact fun hEq => absurd hEq hOther
    · rintro ⟨ds, hNumber, hText⟩
      have hFirst :=
        firstNumber_of_text_eq hNormal hName hNumber hText
      exact absurd hFirst.isNumbered hNumbered
    · intro ds hFirst
      exact absurd hFirst.isNumbered hNumbered
    · intro _
      exact ⟨hOther, directory_withName _ _, stem name,
        isStem_stem name, name?_withName _ _⟩

/-
  The seventh output overwrites itself. A program that is
  called `..out.txt` does not, and its result stays in its
  directory.
-/
theorem defaultOutput?_overwrites_seven :
    (ofText "output-007.txt".toList).defaultOutput? =
        some (ofText "output-007.txt".toList) ∧
      ∃ q, (ofText "runs//a/..out.txt".toList).defaultOutput? =
          some q ∧
        q ≠ ofText "runs/a/..out.txt".toList ∧
        q.directory = ofText "runs/a".toList := by
  constructor
  · rcases defaultOutput?_overwrites
        (isNormal_ofText "output-007.txt".toList) rfl with
      ⟨q, hOutput, hSelf, -⟩
    rw [hOutput, hSelf.2 ⟨"007".toList, by decide, by decide⟩]
  · rcases defaultOutput?_overwrites
        (isNormal_ofText "runs//a/..out.txt".toList) rfl with
      ⟨q, hOutput, -, -, hBeside⟩
    have hPlain : ¬ IsNumbered "..out.txt".toList :=
      number?_eq_none_iff.1 (by decide)
    rcases hBeside hPlain with ⟨hOther, hDirectory, -⟩
    exact ⟨q, hOutput, hOther, hDirectory⟩

end Path

end StackCalc
