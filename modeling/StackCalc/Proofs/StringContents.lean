import StackCalc.Proofs.StringOrder

/-
  Joining and repeating strings.

  The operators see what stands between the quotes of their
  strings, and what they give gets its quotes back. Whether
  it does depends on the given text alone: one that starts
  and ends with a quote loses these instead. Contents
  without quotes never come to that, so among them joining
  and repeating obey the laws of texts.

  Main declarations:
    * `Value.ofContent`
    * `Text.toggleQuotes_eq_inQuotes_iff`
    * `Binary.Encloses`
    * `Binary.apply_add_contents`
    * `Binary.apply_multiply_content`
    * `Binary.apply_contents`
-/

------------------------------------------------------------
-- Layers Of Quotes
------------------------------------------------------------

namespace StackCalc

/- The string with a text between its quotes. -/
def Value.ofContent (t : Text) : Value :=
  .string (Text.inQuotes t)

namespace Text

theorem unwrap_ne_inQuotes
    (t : Text) :
    unwrap t ≠ inQuotes t := by
  intro h
  have hLength := congrArg List.length h
  simp only [unwrap, inQuotes, List.length_dropLast,
    List.length_tail, List.length_cons, List.length_append,
    List.length_nil] at hLength
  omega

/- A text gets quotes unless it starts and ends with one. -/
theorem toggleQuotes_eq_inQuotes_iff
    {t : Text} :
    toggleQuotes t = inQuotes t ↔ isQuoted t = false := by
  unfold toggleQuotes
  split
  case isTrue hQuoted =>
    simp [hQuoted, unwrap_ne_inQuotes]
  case isFalse hPlain =>
    simp [hPlain]

/- A text without quotes is not quoted. -/
theorem isQuoted_of_not_mem
    {t : Text}
    (h : '"' ∉ t) :
    isQuoted t = false := by
  rw [← Bool.not_eq_true]
  intro hQuoted
  rw [eq_of_isWrapped hQuoted] at h
  exact h List.mem_cons_self

theorem repeated_eq_flatten
    (t : Text)
    (n : Nat) :
    repeated t n = (List.replicate n t).flatten := by
  unfold repeated
  split
  case isTrue hEmpty =>
    simp [List.isEmpty_iff.1 hEmpty]
  case isFalse =>
    rfl

theorem not_mem_flatten_replicate
    {c : Char}
    {t : Text}
    (h : c ∉ t)
    (n : Nat) :
    c ∉ (List.replicate n t).flatten := by
  intro hMem
  rcases List.mem_flatten.1 hMem with ⟨u, hu, hc⟩
  rw [List.eq_of_mem_replicate hu] at hc
  exact h hc

end Text

end StackCalc

------------------------------------------------------------
-- Texts That Operators Give
------------------------------------------------------------

namespace StackCalc

namespace Binary

/-
  An outcome encloses a text in quotes, unless the text
  starts and ends with quotes, which are lost then.
-/
structure Encloses
    (r : Except Fault Value)
    (t : Text) : Prop where
  content_iff :
    r = .ok (.ofContent t) ↔ Text.isQuoted t = false
  unwrapped :
    Text.isQuoted t = true →
      r = .ok (.string (Text.unwrap t))

/- The text of an operator is enclosed. -/
theorem encloses_ofText
    (t : Text) :
    Encloses (.ok (.ofText t)) t := by
  constructor
  · rw [← Text.toggleQuotes_eq_inQuotes_iff]
    simp [Value.ofText, Value.ofContent]
  · intro hQuoted
    simp [Value.ofText, Text.toggleQuotes, hQuoted]

/- A text without quotes is enclosed in just one layer. -/
theorem ofText_of_not_mem
    {t : Text}
    (h : '"' ∉ t) :
    Value.ofText t = .ofContent t := by
  have hPlain := Text.isQuoted_of_not_mem h
  rw [Value.ofText,
    Text.toggleQuotes_eq_inQuotes_iff.2 hPlain,
    Value.ofContent]

/- Operators see the content of a string. -/
@[simp] theorem operand_ofContent
    (t : Text) :
    (Value.ofContent t).operand = .text t := by
  simp [Value.ofContent, Value.operand]

/- The sum of strings is their contents joined. -/
theorem apply_add_contents
    (a b : Text) :
    apply .add (.ofContent a) (.ofContent b) =
      .ok (.ofText (a ++ b)) := by
  simp [apply, combine, operate, onTexts, given]

/-
  The product of a string and a count is its content that
  many times over, if an index can reach its end.
-/
theorem apply_multiply_content
    {a : Text}
    {n : Nat}
    (hCount : n ≤ Storage.greatest)
    (hLength : a.length * n ≤ Storage.greatest) :
    apply .multiply (.ofContent a) (.integer n) =
      .ok (.ofText (List.replicate n a).flatten) := by
  have hPos : ¬ (n : Int) < 0 := by
    omega
  have hRange :
      ¬ (Storage.greatest < n ∨
        Storage.greatest < a.length * n) := by
    omega
  have hRepeated :
      repetition a n =
        .ok (.ofText (List.replicate n a).flatten) := by
    rw [repetition, if_neg hPos, if_neg hRange,
      Int.toNat_natCast, Text.repeated_eq_flatten]
  have hOperand :
      (Value.integer n).operand = .number (.integer n) := rfl
  simp [apply, combine, operate, hOperand, hRepeated]

theorem apply_add_of_not_mem
    {a b : Text}
    (ha : '"' ∉ a)
    (hb : '"' ∉ b) :
    apply .add (.ofContent a) (.ofContent b) =
      .ok (.ofContent (a ++ b)) := by
  have hBoth : '"' ∉ a ++ b := by
    simp [ha, hb]
  rw [apply_add_contents, ofText_of_not_mem hBoth]

theorem apply_multiply_of_not_mem
    {a : Text}
    {n : Nat}
    (ha : '"' ∉ a)
    (hCount : n ≤ Storage.greatest)
    (hLength : a.length * n ≤ Storage.greatest) :
    apply .multiply (.ofContent a) (.integer n) =
      .ok (.ofContent (List.replicate n a).flatten) := by
  rw [apply_multiply_content hCount hLength,
    ofText_of_not_mem (Text.not_mem_flatten_replicate ha n)]

end Binary

end StackCalc

------------------------------------------------------------
-- Laws
------------------------------------------------------------

namespace StackCalc

namespace Binary

/- Either way of joining three contents gives all three. -/
theorem add_assoc_of_not_mem
    {a b c : Text}
    (ha : '"' ∉ a)
    (hb : '"' ∉ b)
    (hc : '"' ∉ c) :
    (do
      let v ← apply .add (.ofContent a) (.ofContent b)
      apply .add v (.ofContent c)) =
        .ok (.ofContent (a ++ b ++ c)) ∧
    (do
      let v ← apply .add (.ofContent b) (.ofContent c)
      apply .add (.ofContent a) v) =
        .ok (.ofContent (a ++ b ++ c)) := by
  have hFirst : '"' ∉ a ++ b := by
    simp [ha, hb]
  have hLast : '"' ∉ b ++ c := by
    simp [hb, hc]
  constructor
  · rw [apply_add_of_not_mem ha hb]
    exact apply_add_of_not_mem hFirst hc
  · rw [apply_add_of_not_mem hb hc, List.append_assoc]
    exact apply_add_of_not_mem ha hLast

/- Counts that add up give contents that are joined. -/
theorem multiply_add_of_not_mem
    {a : Text}
    {m n : Nat}
    (ha : '"' ∉ a)
    (hCount : (m + n : Nat) ≤ Storage.greatest)
    (hLength : a.length * (m + n : Nat) ≤ Storage.greatest) :
    (do
      let v ← apply .multiply (.ofContent a) (.integer m)
      let w ← apply .multiply (.ofContent a) (.integer n)
      apply .add v w) =
        apply .multiply (.ofContent a)
          (.integer (m + n : Nat)) := by
  have hSplit :
      (a.length * (m + n : Nat) : Int) =
        a.length * m + a.length * n := by
    push_cast
    exact Int.mul_add _ _ _
  have hFirst : (0 : Int) ≤ a.length * m :=
    Int.mul_nonneg (by omega) (by omega)
  have hSecond : (0 : Int) ≤ a.length * n :=
    Int.mul_nonneg (by omega) (by omega)
  rw [apply_multiply_of_not_mem ha hCount hLength,
    apply_multiply_of_not_mem (n := m) ha (by omega)
      (by omega),
    apply_multiply_of_not_mem (n := n) ha (by omega)
      (by omega),
    ← List.replicate_append_replicate, List.flatten_append]
  exact apply_add_of_not_mem
    (Text.not_mem_flatten_replicate ha m)
    (Text.not_mem_flatten_replicate ha n)

/-
  Sums and products of strings enclose their contents,
  joined or repeated. Among contents without quotes joining
  is associative with the empty string as identity, counts
  add up, and every result has one layer of quotes.
-/
theorem apply_contents
    (a b : Text) :
    Encloses (apply .add (.ofContent a) (.ofContent b))
        (a ++ b) ∧
      (∀ n : Nat, n ≤ Storage.greatest →
        a.length * n ≤ Storage.greatest →
        Encloses
          (apply .multiply (.ofContent a) (.integer n))
          (List.replicate n a).flatten) ∧
      ('"' ∉ a → '"' ∉ b →
        (∀ c, '"' ∉ c →
          (do
            let v ← apply .add (.ofContent a) (.ofContent b)
            apply .add v (.ofContent c)) =
              .ok (.ofContent (a ++ b ++ c)) ∧
          (do
            let v ← apply .add (.ofContent b) (.ofContent c)
            apply .add (.ofContent a) v) =
              .ok (.ofContent (a ++ b ++ c))) ∧
        apply .add (.ofContent a) (.ofContent []) =
          .ok (.ofContent a) ∧
        apply .add (.ofContent []) (.ofContent a) =
          .ok (.ofContent a) ∧
        (∀ m n : Nat, (m + n : Nat) ≤ Storage.greatest →
          a.length * (m + n : Nat) ≤ Storage.greatest →
          (do
            let v ←
              apply .multiply (.ofContent a) (.integer m)
            let w ←
              apply .multiply (.ofContent a) (.integer n)
            apply .add v w) =
              apply .multiply (.ofContent a)
                (.integer (m + n : Nat))) ∧
        (∃ c, '"' ∉ c ∧
          apply .add (.ofContent a) (.ofContent b) =
            .ok (.ofContent c)) ∧
        ∀ n : Nat, n ≤ Storage.greatest →
          a.length * n ≤ Storage.greatest →
          ∃ c, '"' ∉ c ∧
            apply .multiply (.ofContent a) (.integer n) =
              .ok (.ofContent c)) := by
  have hEmpty : '"' ∉ ([] : Text) :=
    List.not_mem_nil
  refine ⟨?_, ?_, ?_⟩
  · rw [apply_add_contents]
    exact encloses_ofText (a ++ b)
  · intro n hCount hLength
    rw [apply_multiply_content hCount hLength]
    exact encloses_ofText _
  · intro ha hb
    refine ⟨?_, ?_, ?_, ?_, ?_, ?_⟩
    · intro c hc
      exact add_assoc_of_not_mem ha hb hc
    · rw [apply_add_of_not_mem ha hEmpty, List.append_nil]
    · rw [apply_add_of_not_mem hEmpty ha, List.nil_append]
    · intro m n hCount hLength
      exact multiply_add_of_not_mem ha hCount hLength
    · exact ⟨a ++ b, by simp [ha, hb],
        apply_add_of_not_mem ha hb⟩
    · intro n hCount hLength
      exact ⟨(List.replicate n a).flatten,
        Text.not_mem_flatten_replicate ha n,
        apply_multiply_of_not_mem ha hCount hLength⟩

/-
  Two contents that meet with quotes at their ends lose a
  layer when they are joined, and three times over a quote
  becomes a single one. Contents without quotes add up.
-/
theorem apply_contents_layers :
    apply .add (.ofContent "\"a".toList)
          (.ofContent "b\"".toList) =
        .ok (.string "ab".toList) ∧
      apply .multiply (.ofContent "\"".toList) (.integer 3) =
        .ok (.string "\"".toList) ∧
      (do
        let v ←
          apply .multiply (.ofContent "ab".toList) (.integer 2)
        let w ←
          apply .multiply (.ofContent "ab".toList) (.integer 1)
        apply .add v w) =
          apply .multiply (.ofContent "ab".toList)
            (.integer 3) := by
  have hMeet := apply_contents "\"a".toList "b\"".toList
  have hThrice := apply_contents "\"".toList []
  have hLaws := apply_contents "ab".toList []
  exact ⟨hMeet.1.unwrapped (by decide),
    (hThrice.2.1 3 (by decide) (by decide)).unwrapped
      (by decide),
    (hLaws.2.2 (by decide) (by decide)).2.2.2.1 2 1
      (by decide) (by decide)⟩

end Binary

end StackCalc
