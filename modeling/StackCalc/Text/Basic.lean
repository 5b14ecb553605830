/-
  This file defines the texts the calculator works on and
  the few operations on them that know nothing about any
  character class.

  Key definitions include:
    * `StackCalc.Text`
    * `StackCalc.Text.joinWith`
    * `StackCalc.Text.holds`
    * `StackCalc.Text.order`
    * `StackCalc.Text.isWrapped`
-/

------------------------------------------------------------
-- Texts
------------------------------------------------------------

namespace StackCalc

/-
  A text is the list of its characters, so that positions
  and lengths count characters.
-/
abbrev Text :=
  List Char

namespace Text

/- The texts in order, with `sep` between neighbours. -/
def joinWith
    (sep : Text) :
    List Text → Text
  | [] => []
  | [t] => t
  | t :: ts => t ++ sep ++ joinWith sep ts

/- The separator stands after a text that is not the last. -/
theorem joinWith_cons_cons
    (sep t u : Text)
    (ts : List Text) :
    joinWith sep (t :: u :: ts) =
      t ++ (sep ++ joinWith sep (u :: ts)) := by
  simp [joinWith]

/- Whether `part` stands somewhere in a text. -/
def holds
    (part : Text) : Text → Bool
  | [] => part.isEmpty
  | c :: rest =>
      part.isPrefixOf (c :: rest) || holds part rest

/- Compare texts by their first differing characters. -/
def order : Text → Text → Ordering
  | [], [] => .eq
  | [], _ :: _ => .lt
  | _ :: _, [] => .gt
  | a :: as, b :: bs =>
      if a < b then .lt
      else if b < a then .gt
      else order as bs

/-
  Whether a text has at least two characters, the first
  of which is `a` and the last of which is `z`.
-/
def isWrapped
    (a z : Char)
    (t : Text) : Bool :=
  2 ≤ t.length && t.head? == some a && t.getLast? == some z

/- The text without its first and its last character. -/
def unwrap (t : Text) : Text :=
  t.tail.dropLast

/- Wrapping a text and unwrapping it gives it back. -/
@[simp] theorem unwrap_wrap
    (a z : Char)
    (t : Text) :
    unwrap (a :: (t ++ [z])) = t := by
  simp [unwrap]

/- A text between two characters is wrapped in them. -/
@[simp] theorem isWrapped_wrap
    (a z : Char)
    (t : Text) :
    isWrapped a z (a :: (t ++ [z])) = true := by
  simp [isWrapped, List.getLast?_cons]

/-
  A wrapped text is its first character, what unwrapping
  leaves, and its last character.
-/
theorem eq_of_isWrapped
    {a z : Char}
    {t : Text}
    (h : isWrapped a z t = true) :
    t = a :: (unwrap t ++ [z]) := by
  cases t with
  | nil =>
      simp [isWrapped] at h
  | cons c rest =>
      rcases List.eq_nil_or_concat rest with hNil | ⟨m, d, hCat⟩
      · subst hNil
        simp [isWrapped] at h
      · subst hCat
        simp_all [isWrapped, unwrap, List.getLast?_cons]

end Text

end StackCalc
