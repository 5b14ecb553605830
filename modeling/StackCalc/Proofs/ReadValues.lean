import StackCalc.Proofs.OperatorResults
import StackCalc.Proofs.RawSteps

/-
  What the values of literals are like.

  Every literal that is read is spelled by the grammar,
  whatever the length of its numbers. Its value is well
  formed: integers in arrays can be stored, and the rows of
  a matrix have one length. An integer that is read by
  itself is short enough to be written again.

  Main declarations:
    * `Value.WellFormed`
    * `Literal.spells_of_parse`
    * `Literal.wellFormed_of_parse`
    * `Literal.isShort_of_parse`
-/

------------------------------------------------------------
-- Well-Formed Values
------------------------------------------------------------

namespace StackCalc

/-
  A value as the calculator keeps it: only the names of
  operators and the sources of blocks are deferred, the
  integers in arrays can be stored, and the rows of a
  matrix have one length.
-/
def Value.WellFormed : Value → Prop
  | deferred t =>
      Operator.isName t = true ∨ t.head? = some '{'
  | vector v => v.Stored
  | matrix m => m.IsSound
  | _ => True

namespace Grammar

/- Rows of one length that can be stored are a matrix. -/
theorem Stacks.isSound
    {vs : List NumVector}
    {m : NumMatrix}
    (h : Stacks vs m)
    (hStored : ∀ v ∈ vs, v.Stored) :
    m.IsSound := by
  cases h with
  | ints hRows hWidth =>
      refine ⟨?_, hWidth⟩
      intro z hz
      rcases List.mem_flatten.1 hz with ⟨row, hRow, hMem⟩
      exact hStored _ (List.mem_map_of_mem hRow) z hMem
  | floats hFloats hWidth =>
      refine NumMatrix.isSound_floats ?_
      intro row hRow
      rcases List.mem_map.1 hRow with ⟨v, hv, rfl⟩
      exact (NumMatrix.length_toFloats v).trans (hWidth v hv)

/- A literal spells a well-formed value. -/
theorem SpellsLiteral.wellFormed
    {t : Text}
    {v : Value}
    (h : SpellsLiteral t v) :
    v.WellFormed := by
  cases h with
  | scalar hScalar =>
      cases hScalar with
      | @number _ n hNumber =>
          cases n with
          | _ =>
              trivial
      | _ =>
          trivial
  | vector hRow =>
      exact hRow.stored
  | matrix hRows hStacks =>
      apply hStacks.isSound
      intro v hv
      rcases hRows.exists_of_mem v hv with ⟨l, hRow⟩
      exact hRow.stored

end Grammar

end StackCalc

------------------------------------------------------------
-- Parsed Values
------------------------------------------------------------

namespace StackCalc

namespace Literal

open Grammar

/-
  What is parsed stands between quotes, or it was read as a
  whole.
-/
theorem exists_node_of_parse
    {t : Text}
    {v : Value}
    (h : parse t = .ok v) :
    (Text.isQuoted t = true ∧ v = .string t) ∨
      ∃ node, readWhole t = .ok node ∧
        node.toValue = .ok v := by
  unfold parse at h
  split at h
  case isTrue hQuoted =>
    exact .inl ⟨hQuoted, (Except.ok.inj h).symm⟩
  case isFalse =>
    split at h
    case isTrue =>
      simp at h
    case isFalse =>
      split at h
      case h_1 =>
        simp at h
      case h_2 node hWhole =>
        split at h
        case h_1 v' hValue =>
          rw [Except.ok.inj h] at hValue
          exact .inr ⟨node, hWhole, hValue⟩
        case h_2 =>
          simp at h

/-
  Only what the grammar spells is parsed. Unlike in the
  other direction the numbers may have any length.
-/
theorem spells_of_parse
    {t : Text}
    {v : Value}
    (h : parse t = .ok v) :
    (Text.isQuoted t = true ∧ v = .string t) ∨
      ∃ front l back, IsBlanks front ∧ IsBlanks back ∧
        t = front ++ (l ++ back) ∧ SpellsLiteral l v := by
  rcases exists_node_of_parse h with
    hQuoted | ⟨node, hWhole, hValue⟩
  · exact .inl hQuoted
  · exact .inr (spellsLiteral_of_readWhole hWhole hValue)

theorem wellFormed_of_parse
    {t : Text}
    {v : Value}
    (h : parse t = .ok v) :
    v.WellFormed := by
  rcases spells_of_parse h with
    ⟨-, rfl⟩ | ⟨front, l, back, -, -, -, hSpells⟩
  · trivial
  · exact hSpells.wellFormed

end Literal

end StackCalc

------------------------------------------------------------
-- Parsed Integers
------------------------------------------------------------

namespace StackCalc

namespace Decimal

/- Digits denote less than a power of ten. -/
theorem natValue_lt
    {ds : Text}
    (h : ∀ d ∈ ds, d.isDigit = true) :
    natValue ds < Nat.pow 10 ds.length := by
  have hFrom (n : Nat) :
      Nat.ofDigitChars 10 ds n < (n + 1) * 10 ^ ds.length := by
    induction ds generalizing n with
    | nil =>
        simp
    | cons d ds ih =>
        rw [List.forall_mem_cons] at h
        have hDigit := (Text.bounds_of_isDigit h.1).2
        have hValue : d.toNat - '0'.toNat ≤ 9 := by
          change d.toNat - 48 ≤ 9
          omega
        rw [Nat.ofDigitChars_cons, List.length_cons]
        calc
          _ < (10 * n + (d.toNat - '0'.toNat) + 1) *
                10 ^ ds.length :=
            ih h.2 _
          _ ≤ (10 * (n + 1)) * 10 ^ ds.length :=
            Nat.mul_le_mul_right _ (by omega)
          _ = (n + 1) * 10 ^ (ds.length + 1) := by
            rw [Nat.pow_succ]
            ac_rfl
  simpa [natValue] using hFrom 0

/- Few enough digits denote a short number. -/
theorem isShort_natValue
    {ds : Text}
    (h : ∀ d ∈ ds, d.isDigit = true)
    (hFew : ds.length ≤ maxDigits) :
    isShort (natValue ds : ℤ) = true := by
  have hPow : ∀ m n, m ≤ n → Nat.pow 10 m ≤ Nat.pow 10 n :=
    fun _ _ hLe => Nat.pow_le_pow_right (by decide) hLe
  rw [isShort_natCast_iff]
  exact (natValue_lt h).trans_le (hPow _ _ hFew)

theorem isShort_neg
    (z : ℤ) :
    isShort (-z) = isShort z := by
  rw [isShort, isShort, Int.natAbs_neg]

end Decimal

namespace Numeral

open Grammar

/- All that a numeral counts as digits are digits. -/
theorem isDigit_of_mem_whole
    {t : Text}
    {n : Numeral}
    (h : SpellsNumeral t n) :
    ∀ d ∈ n.whole, d.isDigit = true := by
  rcases h with ⟨-, hWhole, -, -⟩
  rw [← hWhole.filter_isDigit]
  intro d hd
  exact (List.mem_filter.1 hd).2

/- The integer of a numeral is short. -/
theorem isShort_of_value?
    {t : Text}
    {n : Numeral}
    {z : ℤ}
    (h : SpellsNumeral t n)
    (hValue : n.value? = some (.integer z)) :
    Decimal.isShort z = true := by
  have hDigits := isDigit_of_mem_whole h
  unfold value? at hValue
  split at hValue
  · rcases Option.map_eq_some_iff.1 hValue with ⟨m, hm, hz⟩
    unfold Decimal.natValue? at hm
    split at hm
    · rename_i hFew
      have hShort := Decimal.isShort_natValue hDigits hFew
      rw [← Number.integer.inj hz, ← Option.some.inj hm]
      split
      · rw [Decimal.isShort_neg]
        exact hShort
      · exact hShort
    · simp at hm
  · simp at hValue

end Numeral

namespace Scalar

open Grammar

/- No word denotes an integer. -/
theorem readWord_ne_integer
    (whole sign t r : Text)
    (z : ℤ) :
    readWord whole sign t ≠
      .ok (.number (.integer z), r) := by
  have hWord (word : Text) :
      ofWord? sign word ≠ some (.number (.integer z)) := by
    unfold ofWord?
    split
    · simp
    · split
      · simp
      · split
        · simp
        · split
          · simp
          · simp
  unfold readWord
  split
  · simp only
    split
    · rename_i s hSome
      intro h
      simp only [Except.ok.injEq, Prod.mk.injEq] at h
      rw [h.1] at hSome
      exact hWord _ hSome
    · simp
  · simp

theorem isShort_of_readNumber
    {t r : Text}
    {z : ℤ}
    (h : readNumber t = .ok (.number (.integer z), r)) :
    Decimal.isShort z = true := by
  unfold readNumber at h
  split at h
  · simp at h
  · rename_i n r' hRead
    split at h
    · simp at h
    · rename_i x hValue
      simp only [Except.ok.injEq, Prod.mk.injEq,
        number.injEq] at h
      rw [h.1] at hValue
      rcases spellsNumeral_of_read hRead with ⟨l, -, hSpells⟩
      exact Numeral.isShort_of_value? hSpells hValue

/- Strings and words are no integers. -/
theorem isShort_of_read
    {t r : Text}
    {z : ℤ}
    (h : read t = .ok (.number (.integer z), r)) :
    Decimal.isShort z = true := by
  unfold read at h
  split at h
  · simp at h
  · split at h
    · unfold readString at h
      split at h
      · simp at h
      · simp at h
    · split at h
      · exact absurd h (readWord_ne_integer _ _ _ _ _)
      · split at h
        · exact isShort_of_readNumber h
        · split at h
          · exact absurd h (readWord_ne_integer _ _ _ _ _)
          · simp at h

end Scalar

namespace Literal

/- Only a single numeral has the value of an integer. -/
theorem eq_scalar_of_toValue
    {node : Node}
    {z : ℤ}
    (h : node.toValue = .ok (.integer z)) :
    node = .scalar (.number (.integer z)) := by
  cases node with
  | scalar s =>
      have hValue := Except.ok.inj h
      cases s with
      | number n =>
          cases n with
          | integer y =>
              rw [Value.integer.inj hValue]
          | float x =>
              simp [Scalar.toValue] at hValue
      | boolean b =>
          simp [Scalar.toValue] at hValue
      | string t =>
          simp [Scalar.toValue] at hValue
  | vector v =>
      simp [Node.toValue] at h
  | rows vs =>
      simp only [Node.toValue] at h
      split at h
      · simp at h
      · simp at h

/- Arrays are no integers either. -/
theorem isShort_of_readNode
    {t r : Text}
    {z : ℤ}
    (h : readNode t =
      .ok (.scalar (.number (.integer z)), r)) :
    Decimal.isShort z = true := by
  unfold readNode at h
  split at h
  · split at h
    · simp at h
    · split at h
      · rename_i node hPack
        simp only [Except.ok.injEq, Prod.mk.injEq] at h
        rw [h.1] at hPack
        rcases packItems_eq_ok_iff.1 hPack with
          ⟨_, _, -, -, hNode⟩ | ⟨_, -, -, hNode⟩
        · simp at hNode
        · simp at hNode
      · simp at h
  · split at h
    · simp at h
    · rename_i s r' hScalar
      simp only [Except.ok.injEq, Prod.mk.injEq,
        Node.scalar.injEq] at h
      rw [h.1] at hScalar
      exact Scalar.isShort_of_read hScalar

/- An integer that is parsed can be written again. -/
theorem isShort_of_parse
    {t : Text}
    {z : ℤ}
    (h : parse t = .ok (.integer z)) :
    Decimal.isShort z = true := by
  rcases exists_node_of_parse h with
    ⟨-, hString⟩ | ⟨node, hWhole, hValue⟩
  · simp at hString
  · rw [eq_scalar_of_toValue hValue] at hWhole
    unfold readWhole at hWhole
    split at hWhole
    · simp at hWhole
    · rename_i node r hRead
      split at hWhole
      · rw [Except.ok.inj hWhole] at hRead
        exact isShort_of_readNode hRead
      · simp at hWhole

end Literal

end StackCalc
