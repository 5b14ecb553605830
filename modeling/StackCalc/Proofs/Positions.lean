import StackCalc.Proofs.InnerRuns
import StackCalc.Proofs.LiteralGrammar

/-
  Where complaints about literals point, and how the reader
  gets on.

  A reader knows what is left to read, and a position in a
  text is the length of what lies before that. So positions
  make sense as long as what is left is the end of the
  text, and this holds of every complaint. A complaint about
  the items of an array comes with the text from its
  opening bracket on. Each part of the reader takes at least
  one character off the text, and so the loop over items
  ends.

  Main declarations:
    * `Text.indexIn`
    * `Literal.IsPart.isLater`
    * `Literal.Flaw`
    * `Literal.Complaint`
    * `Literal.complainsWithin_readWhole`
    * `Reader.Passes`
    * `Reader.Passes.ascends`
    * `Reader.Reads.exists_ascending`
    * `Literal.parse_stays_in_text`
-/

------------------------------------------------------------
-- Indices
------------------------------------------------------------

namespace StackCalc

namespace Text

/- The index in a text at which its end `rest` starts. -/
def indexIn (t rest : Text) : Nat :=
  t.length - rest.length

theorem drop_indexIn
    {t rest : Text}
    (h : rest <:+ t) :
    t.drop (indexIn t rest) = rest :=
  (List.suffix_iff_eq_drop.1 h).symm

theorem indexIn_le
    (t rest : Text) :
    indexIn t rest ≤ t.length :=
  Nat.sub_le _ _

/- A text ends with `rest`, and something stands before. -/
def IsLater (u rest : Text) : Prop :=
  ∃ l, l ≠ [] ∧ u = l ++ rest

theorem IsLater.suffix
    {u rest : Text}
    (h : IsLater u rest) :
    rest <:+ u := by
  rcases h with ⟨l, -, rfl⟩
  exact List.suffix_append l rest

theorem isLater_cons
    (c : Char)
    (rest : Text) :
    IsLater (c :: rest) rest :=
  ⟨[c], List.cons_ne_nil c [], rfl⟩

theorem isLater_of_suffix
    {u rest : Text}
    (h : rest <:+ u)
    (hLength : rest.length < u.length) :
    IsLater u rest := by
  rcases h with ⟨l, rfl⟩
  refine ⟨l, ?_, rfl⟩
  rintro rfl
  simp at hLength

theorem IsLater.of_suffix
    {t u rest : Text}
    (h : IsLater u rest)
    (hu : u <:+ t) :
    IsLater t rest := by
  rcases h with ⟨l, hNe, rfl⟩
  rcases hu with ⟨front, rfl⟩
  exact ⟨front ++ l, by simp [hNe], by simp⟩

theorem indexIn_le_of_suffix
    {t u rest : Text}
    (h : rest <:+ u) :
    indexIn t u ≤ indexIn t rest := by
  have hLength := h.length_le
  unfold indexIn
  omega

/- What stands later has the greater index. -/
theorem IsLater.indexIn_lt
    {t u rest : Text}
    (h : IsLater u rest)
    (hu : u <:+ t) :
    indexIn t u < indexIn t rest := by
  rcases h with ⟨l, hNe, rfl⟩
  have hSome := List.length_pos_iff.2 hNe
  have hLength := hu.length_le
  rw [List.length_append] at hLength
  simp only [indexIn, List.length_append]
  omega

theorem dropBlanks_suffix
    (t : Text) :
    dropBlanks t <:+ t :=
  List.dropWhile_suffix isBlank

end Text

end StackCalc

------------------------------------------------------------
-- Going Forward
------------------------------------------------------------

namespace StackCalc

namespace Reader

open Grammar

variable {α : Type} {item : Reader α} {P : Text → α → Prop}

/- What is left after an item stands later. -/
theorem Reads.isLater
    {u r : Text}
    {a : α}
    (hReads : Reads item P)
    (h : item.read u = .ok (a, r)) :
    Text.IsLater u r := by
  rcases hReads.sound h with ⟨l, hText, -⟩
  exact Text.isLater_of_suffix ⟨l, hText.symm⟩
    (item.shorter h)

theorem Reads.suffix_of_read
    {t r : Text}
    {a : α}
    (hReads : Reads item P)
    (h : item.read (Text.dropBlanks t) = .ok (a, r)) :
    r <:+ t :=
  (hReads.isLater h).suffix.trans (Text.dropBlanks_suffix t)

/- What is left after blanks and one more character. -/
theorem isLater_of_dropBlanks
    {r r' : Text}
    {c : Char}
    (h : Text.dropBlanks r = c :: r') :
    Text.IsLater r r' := by
  apply (Text.isLater_cons c r').of_suffix
  rw [← h]
  exact Text.dropBlanks_suffix r

/- Each turn of the loop goes forward, and so does the loop. -/
theorem Reads.isLater_of_items
    {t r : Text}
    {as : List α}
    (hReads : Reads item P)
    (h : items item t = .ok (as, r)) :
    Text.IsLater t r := by
  fun_induction items item t generalizing as r with
  | case1 =>
      simp at h
  | case2 =>
      simp at h
  | case3 t a r₁ hRead r₂ hRest hShort as' r₃ hMore ih =>
      simp only [Except.ok.injEq, Prod.mk.injEq] at h
      rcases h with ⟨-, rfl⟩
      exact (ih hMore).of_suffix
        ((isLater_of_dropBlanks hRest).suffix.trans
          (hReads.suffix_of_read hRead))
  | case4 t a r₁ hRead r₂ hRest =>
      simp only [Except.ok.injEq, Prod.mk.injEq] at h
      rcases h with ⟨-, rfl⟩
      exact (isLater_of_dropBlanks hRest).of_suffix
        (hReads.suffix_of_read hRead)
  | case5 =>
      simp at h

theorem Reads.isLater_of_array
    {t r : Text}
    {as : List α}
    (hReads : Reads item P)
    (h : array item t = .ok (as, r)) :
    Text.IsLater t r := by
  unfold array at h
  split at h
  case h_1 r' hClose =>
    simp only [Except.ok.injEq, Prod.mk.injEq] at h
    rcases h with ⟨-, rfl⟩
    exact isLater_of_dropBlanks hClose
  case h_2 =>
    exact hReads.isLater_of_items h

end Reader

namespace Literal

open Grammar

/-
  The parts that a literal is read with, from words to
  arrays.
-/
inductive IsPart :
    {α : Type} → (Text → Reading α) → Prop
  | word (whole sign : Text) :
      IsPart (Scalar.readWord whole sign)
  | number :
      IsPart Scalar.readNumber
  | string (whole : Text) :
      IsPart (Scalar.readString whole)
  | scalar :
      IsPart Scalar.read
  | rowItem :
      IsPart readRowItem
  | rowItems :
      IsPart rowItem.array
  | row (whole : Text) :
      IsPart (readRow whole)
  | item :
      IsPart readItem
  | items :
      IsPart item.array
  | node :
      IsPart readNode

theorem isLater_of_readWord
    {whole sign t r : Text}
    {s : Scalar}
    (h : Scalar.readWord whole sign t = .ok (s, r)) :
    Text.IsLater t r := by
  have hLength := Scalar.length_lt_of_readWord h
  unfold Scalar.readWord at h
  split at h
  · simp only at h
    split at h
    · simp only [Except.ok.injEq, Prod.mk.injEq] at h
      rcases h with ⟨-, rfl⟩
      exact Text.isLater_of_suffix
        (List.dropWhile_suffix _) hLength
    · simp at h
  · simp at h

theorem isLater_of_readNumber
    {t r : Text}
    {s : Scalar}
    (h : Scalar.readNumber t = .ok (s, r)) :
    Text.IsLater t r := by
  have hLength := Scalar.length_lt_of_readNumber h
  unfold Scalar.readNumber at h
  split at h
  case h_1 =>
    simp at h
  case h_2 n r' hRead =>
    rcases spellsNumeral_of_read hRead with ⟨l, hText, -⟩
    split at h
    · simp at h
    · simp only [Except.ok.injEq, Prod.mk.injEq] at h
      rcases h with ⟨-, rfl⟩
      exact Text.isLater_of_suffix ⟨l, hText.symm⟩ hLength

theorem isLater_of_readString
    {whole t r : Text}
    {s : Scalar}
    (h : Scalar.readString whole t = .ok (s, r)) :
    Text.IsLater t r := by
  unfold Scalar.readString at h
  split at h
  case h_1 =>
    simp at h
  case h_2 c r' hDrop =>
    simp only [Except.ok.injEq, Prod.mk.injEq] at h
    rcases h with ⟨-, rfl⟩
    apply (Text.isLater_cons c r').of_suffix
    rw [← hDrop]
    exact List.dropWhile_suffix _

theorem isLater_of_scalar
    {t r : Text}
    {s : Scalar}
    (h : Scalar.read t = .ok (s, r)) :
    Text.IsLater t r := by
  rcases spellsScalar_of_read h with ⟨l, hText, -⟩
  exact Text.isLater_of_suffix ⟨l, hText.symm⟩
    (Scalar.length_lt_of_read h)

theorem isLater_of_readRow
    {whole t r : Text}
    {v : NumVector}
    (h : readRow whole t = .ok (v, r)) :
    Text.IsLater t r := by
  unfold readRow at h
  split at h
  case h_1 =>
    simp at h
  case h_2 ss r' hArray =>
    split at h
    · simp only [Except.ok.injEq, Prod.mk.injEq] at h
      rcases h with ⟨-, rfl⟩
      exact reads_rowItem.isLater_of_array hArray
    · simp at h

theorem isLater_of_readNode
    {t r : Text}
    {node : Node}
    (h : readNode t = .ok (node, r)) :
    Text.IsLater t r := by
  unfold readNode at h
  split at h
  case h_1 rest =>
    split at h
    case h_1 =>
      simp at h
    case h_2 is r' hArray =>
      split at h
      · simp only [Except.ok.injEq, Prod.mk.injEq] at h
        rcases h with ⟨-, rfl⟩
        exact (reads_item.isLater_of_array hArray).of_suffix
          (List.suffix_cons '[' rest)
      · simp at h
  case h_2 =>
    split at h
    case h_1 =>
      simp at h
    case h_2 s r' hScalar =>
      simp only [Except.ok.injEq, Prod.mk.injEq] at h
      rcases h with ⟨-, rfl⟩
      exact isLater_of_scalar hScalar

/- Each part takes something off the text. -/
theorem IsPart.isLater
    {α : Type}
    {read : Text → Reading α}
    {u r : Text}
    {a : α}
    (hPart : IsPart read)
    (h : read u = .ok (a, r)) :
    Text.IsLater u r := by
  cases hPart with
  | word whole sign => exact isLater_of_readWord h
  | number => exact isLater_of_readNumber h
  | string whole => exact isLater_of_readString h
  | scalar => exact isLater_of_scalar h
  | rowItem => exact reads_rowItem.isLater h
  | rowItems => exact reads_rowItem.isLater_of_array h
  | row whole => exact isLater_of_readRow h
  | item => exact reads_item.isLater h
  | items => exact reads_item.isLater_of_array h
  | node => exact isLater_of_readNode h

end Literal

end StackCalc

------------------------------------------------------------
-- Flaws Of Arrays
------------------------------------------------------------

namespace StackCalc

/- Complaints about the items of an array. -/
def Malformation.isOfPacking : Malformation → Bool
  | mixedRows => true
  | nonNumber => true
  | beyondFloat => true
  | beyondStorage _ => true
  | _ => false

namespace Literal

open Grammar

/- What is wrong with items that go into no array. -/
inductive Flaw : List Item → Malformation → Prop
  | mixedRows
      {is : List Item}
      {v : NumVector}
      {s : Scalar}
      (hRow : .row v ∈ is)
      (hScalar : .scalar s ∈ is) :
      Flaw is .mixedRows
  | nonNumber
      {ss : List Scalar}
      {s : Scalar}
      (hMem : s ∈ ss)
      (hOther : ∀ n, s ≠ .number n) :
      Flaw (ss.map .scalar) .nonNumber
  | beyondFloat
      {ns : List Number}
      {x : Float}
      {z : Int}
      (hFloat : .float x ∈ ns)
      (hInteger : .integer z ∈ ns)
      (hRange : floatOfInt? z = none) :
      Flaw (ns.map fun n => .scalar (.number n)) .beyondFloat
  | beyondStorage
      {before after : List Int}
      {z : Int}
      (hBefore : ∀ y ∈ before, Storage.fits y = true)
      (hUnfit : Storage.fits z = false) :
      Flaw
        ((before ++ z :: after).map fun y =>
          .scalar (.number (.integer y)))
        (.beyondStorage z)

theorem exists_none_of_mapM
    {α β : Type}
    {f : α → Option β}
    {as : List α}
    (h : as.mapM f = none) :
    ∃ a ∈ as, f a = none := by
  by_cases hAll : ∀ a ∈ as, (f a).isSome = true
  · rcases exists_mapM_eq_some_iff.2 hAll with ⟨bs, hSome⟩
    rw [h] at hSome
    simp at hSome
  · simpa using hAll

theorem exists_other_of_numbers?
    {ss : List Scalar}
    (h : numbers? ss = none) :
    ∃ s ∈ ss, ∀ n, s ≠ .number n := by
  rcases exists_none_of_mapM h with ⟨s, hMem, hOther⟩
  refine ⟨s, hMem, ?_⟩
  rintro n rfl
  simp at hOther

theorem flaw_of_beyondFloat
    {ns : List Number}
    (h : NumVector.ofNumbers ns = .error .beyondFloat) :
    Flaw (ns.map fun n => .scalar (.number n))
      .beyondFloat := by
  unfold NumVector.ofNumbers at h
  split at h
  case isTrue hAny =>
    rcases any_isFloat_iff.1 hAny with ⟨x, hFloat⟩
    split at h
    case h_1 =>
      simp at h
    case h_2 hNone =>
      rcases exists_none_of_mapM hNone with ⟨n, hMem, hRange⟩
      cases n with
      | integer z =>
          exact .beyondFloat hFloat hMem hRange
      | float y =>
          simp [Number.toFloat?] at hRange
  case isFalse =>
    simp only at h
    split at h
    · simp at h
    · simp at h

/- The integer complained of is the first that is unfit. -/
theorem flaw_of_beyondStorage
    {ns : List Number}
    {z : Int}
    (h : NumVector.ofNumbers ns = .error (.beyondStorage z)) :
    Flaw (ns.map fun n => .scalar (.number n))
      (.beyondStorage z) := by
  unfold NumVector.ofNumbers at h
  split at h
  case isTrue =>
    split at h
    · simp at h
    · simp at h
  case isFalse hAny =>
    simp only at h
    split at h
    case h_1 z' hFirst =>
      simp only [Except.error.injEq,
        Unfit.beyondStorage.injEq] at h
      rw [h] at hFirst
      rcases List.find?_eq_some_iff_append.1 hFirst with
        ⟨hUnfit, before, after, hSplit, hBefore⟩
      rw [eq_map_integers (Bool.eq_false_iff.2 hAny), hSplit,
        List.map_map]
      refine .beyondStorage ?_ ?_
      · intro y hy
        simpa using hBefore y hy
      · simpa using hUnfit
    case h_2 =>
      simp at h

/- Scalars that are not packed have the flaw complained of. -/
theorem flaw_of_pack
    {ss : List Scalar}
    {cause : Malformation}
    (h : pack ss = .error cause) :
    Flaw (ss.map .scalar) cause := by
  unfold pack at h
  split at h
  case h_1 hOther =>
    rcases exists_other_of_numbers? hOther with
      ⟨s, hMem, hOther⟩
    rw [← Except.error.inj h]
    exact .nonNumber hMem hOther
  case h_2 ns hNumbers =>
    rw [numbers?_eq_some_iff.1 hNumbers, List.map_map]
    split at h
    case h_1 =>
      simp at h
    case h_2 hUnfit =>
      rw [← Except.error.inj h]
      exact flaw_of_beyondFloat hUnfit
    case h_3 z hUnfit =>
      rw [← Except.error.inj h]
      exact flaw_of_beyondStorage hUnfit

theorem exists_row_of_rowsOf
    {is : List Item}
    (h : rowsOf is ≠ []) :
    ∃ v, .row v ∈ is := by
  rcases List.exists_mem_of_ne_nil _ h with ⟨v, hv⟩
  rcases List.mem_filterMap.1 hv with ⟨i, hMem, hRow⟩
  cases i with
  | row w =>
      exact ⟨w, hMem⟩
  | scalar s =>
      simp at hRow

theorem exists_scalar_of_scalarsOf
    {is : List Item}
    (h : scalarsOf is ≠ []) :
    ∃ s, .scalar s ∈ is := by
  rcases List.exists_mem_of_ne_nil _ h with ⟨s, hs⟩
  rcases List.mem_filterMap.1 hs with ⟨i, hMem, hScalar⟩
  cases i with
  | row v =>
      simp at hScalar
  | scalar s' =>
      exact ⟨s', hMem⟩

/- So do items that are not packed. -/
theorem flaw_of_packItems
    {is : List Item}
    {cause : Malformation}
    (h : packItems is = .error cause) :
    Flaw is cause := by
  unfold packItems at h
  split at h
  case h_1 ss hRows =>
    split at h
    case h_1 =>
      simp at h
    case h_2 cause' hPack =>
      rw [← Except.error.inj h, eq_map_scalarsOf hRows]
      exact flaw_of_pack hPack
  case h_2 =>
    simp at h
  case h_3 hRows hScalars =>
    rw [← Except.error.inj h]
    rcases exists_row_of_rowsOf hRows with ⟨v, hRow⟩
    rcases exists_scalar_of_scalarsOf hScalars with
      ⟨s, hScalar⟩
    exact .mixedRows hRow hScalar

end Literal

end StackCalc

------------------------------------------------------------
-- Complaints
------------------------------------------------------------

namespace StackCalc

namespace Literal

open Grammar

/- An array starts here whose items have a flaw. -/
def OpensFlawed
    (rest : Text)
    (cause : Malformation) : Prop :=
  ∃ l after is, rest = l ++ after ∧
    Bracketed SpellsItem l is ∧ Flaw is cause

/-
  A complaint about a text comes with the end of it. If it
  is about the items of an array, it starts where the array
  does.
-/
structure Complaint
    (t : Text)
    (cause : Malformation)
    (rest : Text) : Prop where
  within : rest <:+ t
  opening : cause.isOfPacking = true → OpensFlawed rest cause

/- Whatever is complained of, it is so about a text. -/
def ComplainsWithin
    {α : Type}
    (t : Text)
    (reading : Except ReadError α) : Prop :=
  ∀ cause rest, reading = .error (.malformed cause rest) →
    Complaint t cause rest

variable {α : Type}

theorem complainsWithin_ok
    (t : Text)
    (a : α) :
    ComplainsWithin t (.ok a) := by
  intro cause rest h
  simp at h

theorem complainsWithin_tooManyDigits
    (t : Text) :
    ComplainsWithin t
      (.error .tooManyDigits : Except ReadError α) := by
  intro cause rest h
  simp at h

theorem complainsWithin_error_iff
    {t rest : Text}
    {cause : Malformation} :
    ComplainsWithin t
        (.error (.malformed cause rest) :
          Except ReadError α) ↔
      Complaint t cause rest := by
  constructor
  · intro h
    exact h cause rest rfl
  · intro h cause' rest' hEq
    simp only [Except.error.injEq,
      ReadError.malformed.injEq] at hEq
    rcases hEq with ⟨rfl, rfl⟩
    exact h

/- A complaint that is not about items may point anywhere. -/
theorem complainsWithin_error
    {t rest : Text}
    {cause : Malformation}
    (hOther : cause.isOfPacking = false)
    (h : rest <:+ t) :
    ComplainsWithin t
      (.error (.malformed cause rest) : Except ReadError α) := by
  rw [complainsWithin_error_iff]
  refine ⟨h, ?_⟩
  intro hPacking
  rw [hOther] at hPacking
  exact Bool.noConfusion hPacking

/- A complaint about an array starts where the array does. -/
theorem complainsWithin_array
    {rest l after : Text}
    {is : List Item}
    {cause : Malformation}
    (hText : rest = l ++ after)
    (hItems : Bracketed SpellsItem l is)
    (hFlaw : Flaw is cause) :
    ComplainsWithin rest
      (.error (.malformed cause rest) : Except ReadError α) := by
  rw [complainsWithin_error_iff]
  exact ⟨List.suffix_rfl,
    fun _ => ⟨l, after, is, hText, hItems, hFlaw⟩⟩

/- A complaint about the end of a text is about the text. -/
theorem ComplainsWithin.of_error
    {β : Type}
    {t u : Text}
    {reading : Except ReadError α}
    {e : ReadError}
    (h : ComplainsWithin u reading)
    (hError : reading = .error e)
    (hu : u <:+ t) :
    ComplainsWithin t (.error e : Except ReadError β) := by
  intro cause rest hEq
  rw [Except.error.inj hEq] at hError
  have hComplaint := h cause rest hError
  exact ⟨hComplaint.within.trans hu, hComplaint.opening⟩

theorem complainsWithin_readWord
    {t whole u : Text}
    (hWhole : whole <:+ t)
    (hu : u <:+ t)
    (sign : Text) :
    ComplainsWithin t (Scalar.readWord whole sign u) := by
  unfold Scalar.readWord
  split
  · simp only
    split
    · exact complainsWithin_ok t _
    · exact complainsWithin_error rfl hWhole
  · exact complainsWithin_error rfl hu

theorem complainsWithin_readNumber
    (t : Text) :
    ComplainsWithin t (Scalar.readNumber t) := by
  unfold Scalar.readNumber
  split
  · exact complainsWithin_error rfl List.suffix_rfl
  · split
    · exact complainsWithin_tooManyDigits t
    · exact complainsWithin_ok t _

theorem complainsWithin_readString
    (whole t : Text) :
    ComplainsWithin whole (Scalar.readString whole t) := by
  unfold Scalar.readString
  split
  · exact complainsWithin_error rfl List.suffix_rfl
  · exact complainsWithin_ok whole _

/- Scalars are complained of where they stand. -/
theorem complainsWithin_scalar
    (t : Text) :
    ComplainsWithin t (Scalar.read t) := by
  unfold Scalar.read
  split
  case h_1 =>
    exact complainsWithin_error rfl List.suffix_rfl
  case h_2 c rest =>
    have hWhole : c :: rest <:+ c :: rest := List.suffix_rfl
    split
    · exact complainsWithin_readString _ _
    · split
      · exact complainsWithin_readWord hWhole
          (List.suffix_cons c rest) [c]
      · split
        · exact complainsWithin_readNumber _
        · split
          · exact complainsWithin_readWord hWhole hWhole []
          · exact complainsWithin_error rfl hWhole

end Literal

end StackCalc

------------------------------------------------------------
-- Complaints About Arrays
------------------------------------------------------------

namespace StackCalc

namespace Reader

open Grammar Literal

variable {α : Type} {item : Reader α} {P : Text → α → Prop}

/- Complaints about items carry over to the whole list. -/
theorem Reads.complainsWithin_items
    (hReads : Reads item P)
    (hItem : ∀ t, ComplainsWithin t (item.read t))
    (t : Text) :
    ComplainsWithin t (items item t) := by
  fun_induction items item t with
  | case1 t e hError =>
      exact (hItem _).of_error hError (Text.dropBlanks_suffix t)
  | case2 t a r hRead r' hRest hShort e hError ih =>
      exact ih.of_error hError
        ((isLater_of_dropBlanks hRest).suffix.trans
          (hReads.suffix_of_read hRead))
  | case3 t a r hRead r' hRest hShort as r'' hMore ih =>
      exact complainsWithin_ok t _
  | case4 t a r hRead r' hRest =>
      exact complainsWithin_ok t _
  | case5 t a r hRead hComma hClose =>
      exact complainsWithin_error rfl
        ((Text.dropBlanks_suffix r).trans
          (hReads.suffix_of_read hRead))

theorem Reads.complainsWithin_array
    (hReads : Reads item P)
    (hItem : ∀ t, ComplainsWithin t (item.read t))
    (t : Text) :
    ComplainsWithin t (array item t) := by
  unfold array
  split
  · exact complainsWithin_ok t _
  · exact hReads.complainsWithin_items hItem t

end Reader

namespace Literal

open Grammar

theorem complainsWithin_readRowItem
    (t : Text) :
    ComplainsWithin t (readRowItem t) := by
  unfold readRowItem
  split
  · exact complainsWithin_error rfl List.suffix_rfl
  · exact complainsWithin_scalar _

theorem spellsItem_scalar_iff
    (l : Text)
    (s : Scalar) :
    SpellsItem l (.scalar s) ↔ SpellsScalar l s := by
  constructor
  · intro h
    cases h with
    | scalar hScalar =>
        exact hScalar
  · exact .scalar

/- A row is complained of from its opening bracket on. -/
theorem complainsWithin_readRow
    (t : Text) :
    ComplainsWithin ('[' :: t) (readRow ('[' :: t) t) := by
  have hArray := reads_rowItem.complainsWithin_array
    complainsWithin_readRowItem t
  unfold readRow
  split
  case h_1 e hError =>
    exact hArray.of_error hError (List.suffix_cons '[' t)
  case h_2 ss r hItems =>
    split
    case h_1 =>
      exact complainsWithin_ok _ _
    case h_2 cause hPack =>
      rcases reads_rowItem.bracketed_of_array hItems with
        ⟨l, hText, hBracketed⟩
      exact complainsWithin_array hText
        ((bracketed_map_iff spellsItem_scalar_iff).2 hBracketed)
        (flaw_of_pack hPack)

theorem complainsWithin_readItem
    (t : Text) :
    ComplainsWithin t (readItem t) := by
  unfold readItem
  split
  case h_1 rest =>
    split
    case h_1 e hError =>
      exact (complainsWithin_readRow rest).of_error hError
        List.suffix_rfl
    case h_2 =>
      exact complainsWithin_ok _ _
  case h_2 =>
    split
    case h_1 e hError =>
      exact (complainsWithin_scalar t).of_error hError
        List.suffix_rfl
    case h_2 =>
      exact complainsWithin_ok t _

theorem complainsWithin_readNode
    (t : Text) :
    ComplainsWithin t (readNode t) := by
  unfold readNode
  split
  case h_1 rest =>
    have hArray := reads_item.complainsWithin_array
      complainsWithin_readItem rest
    split
    case h_1 e hError =>
      exact hArray.of_error hError
        (List.suffix_cons '[' rest)
    case h_2 is r hItems =>
      split
      case h_1 =>
        exact complainsWithin_ok _ _
      case h_2 cause hPack =>
        rcases reads_item.bracketed_of_array hItems with
          ⟨l, hText, hBracketed⟩
        exact complainsWithin_array hText hBracketed
          (flaw_of_packItems hPack)
  case h_2 =>
    split
    case h_1 e hError =>
      exact (complainsWithin_scalar t).of_error hError
        List.suffix_rfl
    case h_2 =>
      exact complainsWithin_ok t _

theorem complainsWithin_readWhole
    (t : Text) :
    ComplainsWithin t (readWhole t) := by
  have hBlanks := Text.dropBlanks_suffix t
  unfold readWhole
  split
  case h_1 e hError =>
    exact (complainsWithin_readNode _).of_error hError hBlanks
  case h_2 node r hRead =>
    split
    case h_1 =>
      exact complainsWithin_ok t _
    case h_2 =>
      have hAfter : Text.dropBlanks r <:+ r :=
        Text.dropBlanks_suffix r
      exact complainsWithin_error rfl
        (hAfter.trans
          ((isLater_of_readNode hRead).suffix.trans hBlanks))

end Literal

end StackCalc

------------------------------------------------------------
-- The Loop Over Items
------------------------------------------------------------

namespace StackCalc

namespace Reader

open Grammar

variable {α : Type} {item : Reader α} {P : Text → α → Prop}

/-
  The loop that reads items from a text on, with what is
  left before and after each item, and its outcome. A
  comma makes it go on; it ends with a closing bracket,
  with any other character, or with an item that cannot be
  read.
-/
inductive Passes (item : Reader α) :
    Text → List (Text × Text) → Reading (List α) → Prop
  | failed
      {t : Text}
      {e : ReadError}
      (hItem : item.read (Text.dropBlanks t) = .error e) :
      Passes item t [] (.error e)
  | closed
      {t r r' : Text}
      {a : α}
      (hItem : item.read (Text.dropBlanks t) = .ok (a, r))
      (hClose : Text.dropBlanks r = ']' :: r') :
      Passes item t [(Text.dropBlanks t, r)] (.ok ([a], r'))
  | unclosed
      {t r : Text}
      {a : α}
      (hItem : item.read (Text.dropBlanks t) = .ok (a, r))
      (hComma : ∀ r', Text.dropBlanks r ≠ ',' :: r')
      (hClose : ∀ r', Text.dropBlanks r ≠ ']' :: r') :
      Passes item t [(Text.dropBlanks t, r)]
        (.error (.malformed .openArray (Text.dropBlanks r)))
  | turn
      {t r t' : Text}
      {a : α}
      {places : List (Text × Text)}
      {outcome : Reading (List α)}
      (hItem : item.read (Text.dropBlanks t) = .ok (a, r))
      (hComma : Text.dropBlanks r = ',' :: t')
      (hMore : Passes item t' places outcome) :
      Passes item t ((Text.dropBlanks t, r) :: places)
        (outcome.map fun p => (a :: p.1, p.2))

/- On every text the loop ends. -/
theorem exists_passes
    (item : Reader α)
    (t : Text) :
    ∃ places, Passes item t places (items item t) := by
  fun_induction items item t with
  | case1 t e hError =>
      exact ⟨[], .failed hError⟩
  | case2 t a r hRead r' hRest hShort e hError ih =>
      rcases ih with ⟨places, hPasses⟩
      rw [hError] at hPasses
      exact ⟨_, .turn hRead hRest hPasses⟩
  | case3 t a r hRead r' hRest hShort as r'' hMore ih =>
      rcases ih with ⟨places, hPasses⟩
      rw [hMore] at hPasses
      exact ⟨_, .turn hRead hRest hPasses⟩
  | case4 t a r hRead r' hRest =>
      exact ⟨_, .closed hRead hRest⟩
  | case5 t a r hRead hComma hClose =>
      exact ⟨_, .unclosed hRead hComma hClose⟩

theorem items_of_error
    {t : Text}
    {e : ReadError}
    (hItem : item.read (Text.dropBlanks t) = .error e) :
    items item t = .error e := by
  rw [items]
  split
  case h_1 e' hError =>
    rw [hItem] at hError
    rw [Except.error.inj hError]
  case h_2 a r hRead =>
    rw [hItem] at hRead
    simp at hRead

/- After an item, the next character tells how to go on. -/
theorem items_of_read
    {t r : Text}
    {a : α}
    (hItem : item.read (Text.dropBlanks t) = .ok (a, r)) :
    items item t =
      match Text.dropBlanks r with
      | ',' :: r' =>
          (items item r').map fun p => (a :: p.1, p.2)
      | ']' :: r' => .ok ([a], r')
      | r' => .error (.malformed .openArray r') := by
  rw [items]
  split
  case h_1 e hError =>
    rw [hItem] at hError
    simp at hError
  case h_2 a' r₁ hRead =>
    rw [hItem] at hRead
    simp only [Except.ok.injEq, Prod.mk.injEq] at hRead
    rcases hRead with ⟨rfl, rfl⟩
    split
    case h_1 r' hComma =>
      simp only [hComma]
      cases items item r' with
      | error e => rfl
      | ok p => rfl
    case h_2 r' hClose =>
      simp only [hClose]
    case h_3 hComma hClose =>
      split
      · exact absurd ‹_› (hComma _)
      · exact absurd ‹_› (hClose _)
      · rfl

/- The loop has no other outcome than what is read. -/
theorem Passes.items_eq
    {t : Text}
    {places : List (Text × Text)}
    {outcome : Reading (List α)}
    (h : Passes item t places outcome) :
    items item t = outcome := by
  induction h with
  | failed hItem =>
      exact items_of_error hItem
  | closed hItem hClose =>
      rw [items_of_read hItem, hClose]
      rfl
  | unclosed hItem hComma hClose =>
      rw [items_of_read hItem]
      split
      · exact absurd ‹_› (hComma _)
      · exact absurd ‹_› (hClose _)
      · rfl
  | turn hItem hComma hMore ih =>
      rw [items_of_read hItem, hComma, ← ih]
      rfl

/- A turn takes an item and a comma, the last one an item. -/
theorem Passes.length_le
    {t : Text}
    {places : List (Text × Text)}
    {outcome : Reading (List α)}
    (h : Passes item t places outcome) :
    2 * places.length ≤ t.length + 1 := by
  induction h with
  | failed hItem =>
      simp
  | closed hItem hClose =>
      have hShort := length_lt_of_read hItem hClose
      simp only [List.length_singleton]
      omega
  | @unclosed t r a hItem hComma hClose =>
      have hOne := item.shorter hItem
      have hFront := Text.length_dropBlanks_le t
      simp only [List.length_singleton]
      omega
  | @turn t r t' a places outcome hItem hComma hMore ih =>
      have hOne := item.shorter hItem
      have hFront := Text.length_dropBlanks_le t
      have hBack := Text.length_dropBlanks_le r
      rw [hComma, List.length_cons] at hBack
      simp only [List.length_cons]
      omega

/- The indices before and after each item. -/
def indices
    (t : Text)
    (places : List (Text × Text)) : List Nat :=
  places.flatMap fun place =>
    [Text.indexIn t place.1, Text.indexIn t place.2]

theorem indices_cons
    (t before after : Text)
    (places : List (Text × Text)) :
    indices t ((before, after) :: places) =
      Text.indexIn t before :: Text.indexIn t after ::
        indices t places :=
  rfl

/-
  A loop that starts at `u` in a text goes forward in it:
  the indices before and after its items increase, none is
  before the start, and if the loop is closed there is one
  pair for each item, and it has gone on after the last.
-/
structure Ascends
    (t u : Text)
    (places : List (Text × Text))
    (outcome : Reading (List α)) : Prop where
  increasing : (indices t places).Pairwise (· < ·)
  within :
    ∀ i ∈ indices t places,
      Text.indexIn t u ≤ i ∧ i ≤ t.length
  closing :
    ∀ as r, outcome = .ok (as, r) →
      as.length = places.length ∧ r <:+ t ∧
        Text.indexIn t u ≤ Text.indexIn t r ∧
        ∀ i ∈ indices t places, i < Text.indexIn t r

theorem ascends_nil
    {t u : Text}
    {outcome : Reading (List α)}
    (h : ∀ as r, outcome = .ok (as, r) →
      as = [] ∧ r <:+ t ∧
        Text.indexIn t u ≤ Text.indexIn t r) :
    Ascends t u [] outcome := by
  refine ⟨.nil, by simp [indices], ?_⟩
  intro as r hClosed
  rcases h as r hClosed with ⟨rfl, hr, hLe⟩
  exact ⟨rfl, hr, hLe, by simp [indices]⟩

/- One more item goes before those that the loop passes. -/
theorem Ascends.cons
    {t u u' before after : Text}
    {places : List (Text × Text)}
    {outcome : Reading (List α)}
    (h : Ascends t u' places outcome)
    (hStart : Text.indexIn t u ≤ Text.indexIn t before)
    (hForward :
      Text.indexIn t before < Text.indexIn t after)
    (hNext :
      ∀ i ∈ indices t places, Text.indexIn t after < i)
    (hEnd :
      ∀ as r, outcome = .ok (as, r) →
        Text.indexIn t after < Text.indexIn t r)
    (a : α) :
    Ascends t u ((before, after) :: places)
      (outcome.map fun p => (a :: p.1, p.2)) := by
  have hBound := Text.indexIn_le t after
  constructor
  · rw [indices_cons, List.pairwise_cons,
      List.pairwise_cons, List.forall_mem_cons]
    refine ⟨⟨hForward, ?_⟩, hNext, h.increasing⟩
    intro i hi
    exact Nat.lt_trans hForward (hNext i hi)
  · rw [indices_cons, List.forall_mem_cons,
      List.forall_mem_cons]
    refine ⟨⟨hStart, by omega⟩, ⟨by omega, hBound⟩, ?_⟩
    intro i hi
    have hLater := hNext i hi
    exact ⟨by omega, (h.within i hi).2⟩
  · intro as r hClosed
    cases outcome with
    | error e =>
        simp [Except.map] at hClosed
    | ok p =>
        rcases p with ⟨as', r'⟩
        simp only [Except.map, Except.ok.injEq,
          Prod.mk.injEq] at hClosed
        rcases hClosed with ⟨rfl, rfl⟩
        rcases h.closing as' r' rfl with
          ⟨hLength, hr, -, hBefore⟩
        have hLast := hEnd as' r' rfl
        refine ⟨congrArg (· + 1) hLength, hr, by omega, ?_⟩
        rw [indices_cons, List.forall_mem_cons,
          List.forall_mem_cons]
        exact ⟨by omega, hLast, hBefore⟩

/- Reading an item goes forward. -/
theorem Reads.indexIn_lt
    {t u r : Text}
    {a : α}
    (hReads : Reads item P)
    (hu : u <:+ t)
    (h : item.read (Text.dropBlanks u) = .ok (a, r)) :
    r <:+ t ∧
      Text.indexIn t u ≤ Text.indexIn t (Text.dropBlanks u) ∧
      Text.indexIn t (Text.dropBlanks u) <
        Text.indexIn t r := by
  have hBlanks := Text.dropBlanks_suffix u
  have hLater := hReads.isLater h
  exact ⟨hLater.suffix.trans (hBlanks.trans hu),
    Text.indexIn_le_of_suffix hBlanks,
    hLater.indexIn_lt (hBlanks.trans hu)⟩

/- The loop goes forward, whatever its outcome. -/
theorem Passes.ascends
    {t u : Text}
    {places : List (Text × Text)}
    {outcome : Reading (List α)}
    (h : Passes item u places outcome)
    (hReads : Reads item P)
    (hu : u <:+ t) :
    Ascends t u places outcome := by
  induction h with
  | failed hItem =>
      exact ascends_nil (by simp)
  | @closed u r r' a hItem hClose =>
      rcases hReads.indexIn_lt hu hItem with
        ⟨hr, hStart, hForward⟩
      have hLater := isLater_of_dropBlanks hClose
      have hEmpty :
          Ascends t r' [] (.ok (([] : List α), r')) := by
        apply ascends_nil
        rintro as r'' hEq
        simp only [Except.ok.injEq, Prod.mk.injEq] at hEq
        rcases hEq with ⟨rfl, rfl⟩
        exact ⟨rfl, hLater.suffix.trans hr, Nat.le_refl _⟩
      apply hEmpty.cons hStart hForward (by simp [indices])
      rintro as r'' hEq
      simp only [Except.ok.injEq, Prod.mk.injEq] at hEq
      rw [← hEq.2]
      exact hLater.indexIn_lt hr
  | @unclosed u r a hItem hComma hClose =>
      rcases hReads.indexIn_lt hu hItem with
        ⟨-, hStart, hForward⟩
      have hEmpty :
          Ascends t u [] (.error (α := List α × Text)
            (.malformed .openArray (Text.dropBlanks r))) :=
        ascends_nil (by simp)
      exact hEmpty.cons hStart hForward (by simp [indices])
        (by simp) a
  | @turn u r u' a places outcome hItem hComma hMore ih =>
      rcases hReads.indexIn_lt hu hItem with
        ⟨hr, hStart, hForward⟩
      have hLater := isLater_of_dropBlanks hComma
      -- The other turns start after the comma, so that all
      -- their indices are past this item.
      have hPast := hLater.indexIn_lt hr
      have hRest := ih (hLater.suffix.trans hr)
      apply hRest.cons hStart hForward
      · intro i hi
        exact Nat.lt_of_lt_of_le hPast (hRest.within i hi).1
      · intro as r' hEq
        exact Nat.lt_of_lt_of_le hPast
          (hRest.closing as r' hEq).2.2.1

/-
  From every place in a text the loop ends, after at most
  one turn for every two characters, and goes forward.
-/
theorem Reads.exists_ascending
    {t u : Text}
    (hReads : Reads item P)
    (hu : u <:+ t) :
    ∃ places, Passes item u places (items item u) ∧
      Ascends t u places (items item u) ∧
      2 * places.length ≤ u.length + 1 := by
  rcases exists_passes item u with ⟨places, hPasses⟩
  exact ⟨places, hPasses, hPasses.ascends hReads hu,
    hPasses.length_le⟩

end Reader

end StackCalc

------------------------------------------------------------
-- Whole Texts
------------------------------------------------------------

namespace StackCalc

namespace Literal

open Grammar

/- A malformed text is empty, or reading it complains. -/
theorem complaint_of_parse
    {t : Text}
    {f : Fault}
    (h : parse t = .error (.fault f))
    (hKind : f.kind = .malformed) :
    ∃ cause rest, Complaint t cause rest ∧
      f = .malformed cause t (some (Text.indexIn t rest)) ∧
      (t = [] ∨
        readWhole t = .error (.malformed cause rest)) := by
  have hComplains := complainsWithin_readWhole t
  unfold parse at h
  split at h
  case isTrue =>
    simp at h
  case isFalse =>
    split at h
    case isTrue hEmpty =>
      simp only [Except.error.injEq, Stop.fault.injEq] at h
      refine ⟨.emptyLiteral, [], ⟨List.nil_suffix, ?_⟩, ?_,
        .inl hEmpty⟩
      · simp [Malformation.isOfPacking]
      · rw [← h, hEmpty]
        rfl
    case isFalse =>
      split at h
      case h_1 e hError =>
        cases e with
        | malformed cause rest =>
            simp only [stopAt, Except.error.injEq,
              Stop.fault.injEq] at h
            exact ⟨cause, rest, hComplains cause rest hError,
              h.symm, .inr hError⟩
        | tooManyDigits =>
            simp [stopAt] at h
      case h_2 node hWhole =>
        split at h
        case h_1 =>
          simp at h
        case h_2 f' hValue =>
          simp only [Except.error.injEq,
            Stop.fault.injEq] at h
          rw [← h, Node.kind_of_toValue hValue] at hKind
          exact FaultKind.noConfusion hKind

/- A flawed array starts with its opening bracket. -/
theorem OpensFlawed.head
    {rest : Text}
    {cause : Malformation}
    (h : OpensFlawed rest cause) :
    rest.head? = some '[' := by
  rcases h with ⟨l, after, is, rfl, hItems, -⟩
  rcases hItems.exists_eq_cons with ⟨l', rfl⟩
  rfl

theorem exists_readNode_of_readWhole
    {t : Text}
    {node : Node}
    (h : readWhole t = .ok node) :
    ∃ r, readNode (Text.dropBlanks t) = .ok (node, r) ∧
      Text.dropBlanks r = [] := by
  unfold readWhole at h
  split at h
  case h_1 =>
    simp at h
  case h_2 node' r hRead =>
    split at h
    case h_1 hEnd =>
      rw [Except.ok.inj h] at hRead
      exact ⟨r, hRead, hEnd⟩
    case h_2 =>
      simp at h

/- A text that is no string is read from end to end. -/
theorem exists_readNode_of_parse
    {t : Text}
    {v : Value}
    (h : parse t = .ok v)
    (hPlain : Text.isQuoted t = false) :
    ∃ node r,
      readNode (Text.dropBlanks t) = .ok (node, r) ∧
        node.toValue = .ok v ∧ Text.dropBlanks r = [] := by
  unfold parse at h
  rw [if_neg (by simp [hPlain])] at h
  split at h
  case isTrue =>
    simp at h
  case isFalse =>
    split at h
    case h_1 =>
      simp at h
    case h_2 node hWhole =>
      rcases exists_readNode_of_readWhole hWhole with
        ⟨r, hRead, hEnd⟩
      split at h
      case h_1 v' hValue =>
        rw [Except.ok.inj h] at hValue
        exact ⟨node, r, hRead, hValue, hEnd⟩
      case h_2 =>
        simp at h

/-
  Whatever the text, complaints point into it, to what was
  left to read when they came up, and those about the items
  of an array to its opening bracket. Each part that a
  literal is read with goes forward, so that a text that is
  no string is gone through from its start to its end. The
  loop over the items of an array ends, with indices that
  increase from item to item, whether or not the text is
  well-formed.
-/
theorem parse_stays_in_text
    (t : Text) :
    (∀ f, parse t = .error (.fault f) →
      f.kind = .malformed →
        ∃ cause pos, f = .malformed cause t (some pos) ∧
          f.token = some t ∧ f.pos = some pos ∧
          pos ≤ t.length ∧
          (t = [] ∨
            readWhole t =
              .error (.malformed cause (t.drop pos))) ∧
          (cause.isOfPacking = true →
            t[pos]? = some '[' ∧
              OpensFlawed (t.drop pos) cause)) ∧
    (∀ v, parse t = .ok v → Text.isQuoted t = false →
      ∃ node r,
        readNode (Text.dropBlanks t) = .ok (node, r) ∧
          node.toValue = .ok v ∧
          Text.indexIn t (Text.dropBlanks t) <
            Text.indexIn t r ∧
          Text.indexIn t r ≤
            Text.indexIn t (Text.dropBlanks r) ∧
          Text.indexIn t (Text.dropBlanks r) = t.length) ∧
    (∀ (α : Type) (read : Text → Reading α) u a r,
      IsPart read → u <:+ t → read u = .ok (a, r) →
        r <:+ t ∧ Text.indexIn t u < Text.indexIn t r) ∧
    (∀ u, u <:+ t →
      (∃ places,
        rowItem.Passes u places (rowItem.items u) ∧
          Reader.Ascends t u places (rowItem.items u) ∧
          2 * places.length ≤ u.length + 1) ∧
      (∃ places,
        item.Passes u places (item.items u) ∧
          Reader.Ascends t u places (item.items u) ∧
          2 * places.length ≤ u.length + 1)) := by
  refine ⟨?_, ?_, ?_, ?_⟩
  · intro f hFault hKind
    rcases complaint_of_parse hFault hKind with
      ⟨cause, rest, hComplaint, rfl, hLeft⟩
    have hDrop := Text.drop_indexIn hComplaint.within
    refine ⟨cause, _, rfl, rfl, rfl, Text.indexIn_le t rest,
      ?_, ?_⟩
    · rwa [hDrop]
    · intro hPacking
      have hOpens := hComplaint.opening hPacking
      rw [← List.head?_drop, hDrop]
      exact ⟨hOpens.head, hOpens⟩
  · intro v hValue hPlain
    rcases exists_readNode_of_parse hValue hPlain with
      ⟨node, r, hRead, hNode, hEnd⟩
    refine ⟨node, r, hRead, hNode,
      (isLater_of_readNode hRead).indexIn_lt
        (Text.dropBlanks_suffix t),
      Text.indexIn_le_of_suffix (Text.dropBlanks_suffix r), ?_⟩
    rw [hEnd]
    rfl
  · intro α read u a r hPart hu hRead
    have hLater := hPart.isLater hRead
    exact ⟨hLater.suffix.trans hu, hLater.indexIn_lt hu⟩
  · intro u hu
    exact ⟨reads_rowItem.exists_ascending hu,
      reads_item.exists_ascending hu⟩

/-
  A row of a truth value is complained of where it starts,
  after a row that is none the worse. A truth value alone
  is gone through from the blank before it to the one after.
-/
theorem parse_stays_in_text_rows :
    (parse "[[7], [true]]".toList =
        .error (.fault (.malformed .nonNumber
          "[[7], [true]]".toList (some 6))) ∧
      "[[7], [true]]".toList[6]? = some '[' ∧
      OpensFlawed "[true]]".toList .nonNumber) ∧
    parse " true ".toList = .ok (.boolean true) ∧
    ∃ node r,
      readNode "true ".toList = .ok (node, r) ∧
        node.toValue = .ok (.boolean true) ∧
        1 < Text.indexIn " true ".toList r := by
  have hSeven :
      rowItem.array "7], [true]]".toList =
        .ok ([.number (.integer 7)], ", [true]]".toList) :=
    (Reader.Passes.closed rfl rfl).items_eq
  have hTrue :
      rowItem.array "true]]".toList =
        .ok ([.boolean true], "]".toList) :=
    (Reader.Passes.closed rfl rfl).items_eq
  have hRow :
      item.read "[7], [true]]".toList =
        .ok (.row (.ints [7]), ", [true]]".toList) := by
    show readItem ('[' :: "7], [true]]".toList) = _
    rw [readItem, readRow, hSeven]
    rfl
  have hFlawed :
      item.read "[true]]".toList =
        .error (.malformed .nonNumber "[true]]".toList) := by
    show readItem ('[' :: "true]]".toList) = _
    rw [readItem, readRow, hTrue]
    rfl
  have hItems :
      item.array "[7], [true]]".toList =
        .error (.malformed .nonNumber "[true]]".toList) :=
    (Reader.Passes.turn hRow rfl (.failed hFlawed)).items_eq
  have hNode :
      readNode (Text.dropBlanks "[[7], [true]]".toList) =
        .error (.malformed .nonNumber "[true]]".toList) := by
    show readNode ('[' :: "[7], [true]]".toList) = _
    rw [readNode, hItems]
  have hMalformed :
      parse "[[7], [true]]".toList =
        .error (.fault (.malformed .nonNumber
          "[[7], [true]]".toList (some 6))) := by
    rw [parse, if_neg (by decide), if_neg (by decide),
      readWhole, hNode]
    rfl
  rcases (parse_stays_in_text "[[7], [true]]".toList).1 _
      hMalformed rfl with
    ⟨cause, pos, hFault, -, -, -, -, hOpening⟩
  simp only [Fault.malformed.injEq, Option.some.injEq] at hFault
  rcases hFault with ⟨rfl, -, rfl⟩
  rcases (parse_stays_in_text " true ".toList).2.1
      (.boolean true) rfl rfl with
    ⟨node, r, hRead, hValue, hForward, -⟩
  exact ⟨⟨hMalformed, hOpening rfl⟩, rfl, node, r, hRead,
    hValue, hForward⟩

end Literal

end StackCalc
