import Mathlib.Data.Char
import Mathlib.Data.List.Lex
import Mathlib.Order.Compare
import StackCalc.Arithmetic.Binary
import StackCalc.Value.Equality

/-
  Equality and order of strings.

  Strings are compared after each of them has lost a layer
  of quotes, or got one if it had none. The texts that are
  compared then are in the order of dictionaries, so that
  the comparisons of strings are those of a linear order,
  in which a text without quotes stands beside the same
  text in two layers of them and nothing else coincides.

  Main declarations:
    * `Text.order_compares`
    * `Text.IsDoubled`
    * `Text.toggleQuotes_eq_iff`
    * `Binary.Decides`
    * `Binary.decides_strings`
    * `Binary.apply_strings_ordered`
-/

------------------------------------------------------------
-- The Order Of Texts
------------------------------------------------------------

namespace StackCalc

namespace Text

/- Texts are compared as lists of characters are ordered. -/
theorem order_compares
    (s t : Text) :
    (order s t).Compares s t := by
  fun_induction order s t with
  | case1 =>
      rfl
  | case2 b bs =>
      exact List.nil_lt_cons b bs
  | case3 a as =>
      exact List.nil_lt_cons a as
  | case4 a as b bs hLess =>
      exact List.cons_lt_cons_iff.2 (.inl hLess)
  | case5 a as b bs hLess hGreater =>
      exact List.cons_lt_cons_iff.2 (.inl hGreater)
  | case6 a as b bs hLess hGreater ih =>
      have hHead : a = b :=
        le_antisymm (not_lt.1 hGreater) (not_lt.1 hLess)
      subst hHead
      cases hOrder : order as bs with
      | lt =>
          rw [hOrder] at ih
          exact List.cons_lt_cons_iff.2 (.inr ⟨rfl, ih⟩)
      | eq =>
          rw [hOrder] at ih
          exact congrArg (a :: ·) ih
      | gt =>
          rw [hOrder] at ih
          exact List.cons_lt_cons_iff.2 (.inr ⟨rfl, ih⟩)

/- The other way round the outcome is the opposite. -/
theorem order_swap
    (s t : Text) :
    order t s = (order s t).swap :=
  (order_compares t s).inj
    (Ordering.compares_swap.2 (order_compares s t))

end Text

end StackCalc

------------------------------------------------------------
-- Texts That Coincide
------------------------------------------------------------

namespace StackCalc

namespace Text

/- A text without quotes, in two layers of quotes. -/
def IsDoubled
    (u t : Text) : Prop :=
  isQuoted u = false ∧ t = inQuotes (inQuotes u)

theorem inQuotes_inj
    {s t : Text} :
    inQuotes s = inQuotes t ↔ s = t := by
  simp [inQuotes]

/- What stands between the quotes of a quoted text. -/
theorem unwrap_eq_iff
    {t u : Text}
    (h : isQuoted t = true) :
    unwrap t = u ↔ t = inQuotes u := by
  constructor
  · rintro rfl
    exact eq_of_isWrapped h
  · rintro rfl
    exact unwrap_wrap '"' '"' u

/-
  Texts coincide after toggling only if they are the same
  or one of them is the other one doubled.
-/
theorem toggleQuotes_eq_iff
    {s t : Text} :
    toggleQuotes s = toggleQuotes t ↔
      s = t ∨ IsDoubled s t ∨ IsDoubled t s := by
  have hNe (h : isQuoted s ≠ isQuoted t) : s ≠ t :=
    mt (congrArg isQuoted) h
  have hQuoted (u v : Text) (h : isQuoted v = false) :
      v ≠ inQuotes u := by
    rintro rfl
    exact Bool.noConfusion ((isQuoted_inQuotes u).symm.trans h)
  cases hs : isQuoted s with
  | true =>
      cases ht : isQuoted t with
      | true =>
          have hText := (unwrap_eq_iff ht).1 rfl
          simp only [toggleQuotes, IsDoubled, hs, ht, if_true,
            unwrap_eq_iff hs, ← hText, Bool.true_eq_false,
            false_and, or_false]
      | false =>
          simp only [toggleQuotes, IsDoubled, hs, ht, if_true,
            Bool.false_eq_true, if_false, unwrap_eq_iff hs,
            hNe (by simp [hs, ht]), Bool.true_eq_false,
            false_and, true_and, false_or]
  | false =>
      cases ht : isQuoted t with
      | true =>
          rw [eq_comm]
          simp only [toggleQuotes, IsDoubled, hs, ht, if_true,
            Bool.false_eq_true, if_false, unwrap_eq_iff ht,
            hNe (by simp [hs, ht]), Bool.true_eq_false,
            false_and, true_and, false_or, or_false]
      | false =>
          simp only [toggleQuotes, IsDoubled, hs, ht,
            Bool.false_eq_true, if_false, inQuotes_inj,
            hQuoted _ _ hs, hQuoted _ _ ht, and_false,
            or_false]

end Text

end StackCalc

------------------------------------------------------------
-- Comparisons Of Strings
------------------------------------------------------------

namespace StackCalc

namespace Binary

open Text

/-
  The comparison operators agree on the outcome of
  comparing two values.
-/
structure Decides
    (l r : Value)
    (o : Ordering) : Prop where
  equal : apply .equal l r = .ok (.boolean (o = .eq))
  unequal : apply .unequal l r = .ok (.boolean (o ≠ .eq))
  less : apply .less l r = .ok (.boolean (o = .lt))
  greater : apply .greater l r = .ok (.boolean (o = .gt))
  lessEqual :
    apply .lessEqual l r = .ok (.boolean (o ≠ .gt))
  greaterEqual :
    apply .greaterEqual l r = .ok (.boolean (o ≠ .lt))
  compare : apply .compare l r = .ok (.integer (sign o))
  compareBack :
    apply .compare r l = .ok (.integer (-sign o))

theorem sign_swap
    (o : Ordering) :
    sign o.swap = -sign o := by
  cases o with
  | lt =>
      rfl
  | eq =>
      rfl
  | gt =>
      rfl

/- Operators see a string with its quotes toggled. -/
theorem operand_of_text?
    {v : Value}
    {t : Text}
    (h : v.text? = some t) :
    v.operand = .text (toggleQuotes t) := by
  cases v with
  | string u =>
      rw [← Option.some.inj h]
      rfl
  | deferred u =>
      rw [← Option.some.inj h]
      rfl
  | integer _ =>
      simp [Value.text?] at h
  | float _ =>
      simp [Value.text?] at h
  | boolean _ =>
      simp [Value.text?] at h
  | vector _ =>
      simp [Value.text?] at h
  | matrix _ =>
      simp [Value.text?] at h

variable
  {l m r : Value}
  {s t u : Text}

/- Strings compare as their toggled texts are ordered. -/
theorem decides_strings
    (hl : l.text? = some s)
    (hr : r.text? = some t) :
    Decides l r
      (order (toggleQuotes s) (toggleQuotes t)) := by
  have hEqual :
      order (toggleQuotes s) (toggleQuotes t) = .eq ↔
        toggleQuotes s = toggleQuotes t :=
    (order_compares _ _).eq_eq
  constructor
  all_goals
    rw [apply, operand_of_text? hl, operand_of_text? hr]
  · simp [combine, given, Operand.equals, hEqual]
  · simp [combine, given, Operand.equals, hEqual]
  · rfl
  · rfl
  · rfl
  · rfl
  · rfl
  · rw [← sign_swap, ← order_swap]
    rfl

/-
  Strings are equal exactly if they have one text or one
  of them is the other one doubled. The comparisons agree
  on an order, in which less is transitive.
-/
theorem apply_strings_ordered
    (hl : l.text? = some s)
    (hm : m.text? = some t)
    (hr : r.text? = some u) :
    (apply .equal l m = .ok (.boolean true) ↔
        s = t ∨ IsDoubled s t ∨ IsDoubled t s) ∧
      (∃ o, Decides l m o) ∧
      (apply .less l m = .ok (.boolean true) →
        apply .less m r = .ok (.boolean true) →
          apply .less l r = .ok (.boolean true)) := by
  have hFirst := decides_strings hl hm
  have hSecond := decides_strings hm hr
  have hBoth := decides_strings hl hr
  have hLess (x y : Text) :
      order x y = .lt ↔ x < y :=
    (order_compares x y).eq_lt
  refine ⟨?_, ⟨_, hFirst⟩, ?_⟩
  · rw [hFirst.equal, ← toggleQuotes_eq_iff]
    simp [(order_compares _ _).eq_eq]
  · rw [hFirst.less, hSecond.less, hBoth.less]
    simp only [hLess, Except.ok.injEq, Value.boolean.injEq,
      decide_eq_true_eq]
    exact lt_trans

/-
  A deferred plus is equal to a plus in two layers of
  quotes. Both are less than a string with a letter, and
  so than one with a later letter: a text without quotes
  is compared with quotes around it.
-/
theorem apply_strings_ordered_plus :
    Value.text? (.deferred "+".toList) =
        some "+".toList ∧
      Value.text? (.string "\"\"+\"\"".toList) =
        some "\"\"+\"\"".toList ∧
      Value.text? (.string "\"a\"".toList) =
        some "\"a\"".toList ∧
      Value.text? (.string "\"b\"".toList) =
        some "\"b\"".toList ∧
      apply .equal (.deferred "+".toList)
          (.string "\"\"+\"\"".toList) =
        .ok (.boolean true) ∧
      apply .less (.deferred "+".toList)
          (.string "\"b\"".toList) =
        .ok (.boolean true) := by
  have hEqual :=
    apply_strings_ordered
      (l := .deferred "+".toList)
      (m := .string "\"\"+\"\"".toList)
      (r := .string "\"a\"".toList) rfl rfl rfl
  have hLess :=
    apply_strings_ordered
      (l := .deferred "+".toList)
      (m := .string "\"a\"".toList)
      (r := .string "\"b\"".toList) rfl rfl rfl
  exact ⟨rfl, rfl, rfl, rfl,
    hEqual.1.2 (.inr (.inl ⟨rfl, rfl⟩)),
    hLess.2.2 rfl rfl⟩

end Binary

end StackCalc
