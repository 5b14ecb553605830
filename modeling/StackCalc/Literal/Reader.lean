import StackCalc.Fault.Basic
import StackCalc.Text.Blank

/-
  This file defines readers, the parts that literals are
  read with. A reader takes what it reads off the front of
  a text, and it takes at least one character, so reading
  one item after another comes to an end.

  Key definitions include:
    * `StackCalc.ReadError`
    * `StackCalc.Reader`
    * `StackCalc.Reader.items`
    * `StackCalc.Reader.array`
-/

------------------------------------------------------------
-- Readers
------------------------------------------------------------

namespace StackCalc

/-
  Why reading stopped. A complaint comes with what was
  left to read at its place.
-/
inductive ReadError where
  | malformed (cause : Malformation) (rest : Text)
  | tooManyDigits
deriving DecidableEq

/- What was read and the rest of the text. -/
abbrev Reading (α : Type) :=
  Except ReadError (α × Text)

/- A way of reading that takes at least one character. -/
structure Reader (α : Type) where
  read : Text → Reading α
  shorter :
    ∀ {t : Text} {a : α} {r : Text},
      read t = .ok (a, r) → r.length < t.length

end StackCalc

------------------------------------------------------------
-- Arrays
------------------------------------------------------------

namespace StackCalc

namespace Reader

variable {α : Type}

/-
  What follows an item, the blanks around it and one more
  character is shorter than what was to be read.
-/
theorem length_lt_of_read
    {item : Reader α}
    {t r r' : Text}
    {a : α}
    {c : Char}
    (hItem : item.read (Text.dropBlanks t) = .ok (a, r))
    (hRest : Text.dropBlanks r = c :: r') :
    r'.length < t.length := by
  have hOne := item.shorter hItem
  have hFront := Text.length_dropBlanks_le t
  have hBack := Text.length_dropBlanks_le r
  rw [hRest, List.length_cons] at hBack
  omega

/-
  Read items with commas between them, up to a closing
  bracket. Blanks may stand around every item.
-/
def items
    (item : Reader α)
    (t : Text) : Reading (List α) :=
  match hItem : item.read (Text.dropBlanks t) with
  | .error e => .error e
  | .ok (a, r) =>
      match hRest : Text.dropBlanks r with
      | ',' :: r' =>
          have : r'.length < t.length :=
            length_lt_of_read hItem hRest
          match items item r' with
          | .error e => .error e
          | .ok (as, r'') => .ok (a :: as, r'')
      | ']' :: r' => .ok ([a], r')
      | r' => .error (.malformed .openArray r')
termination_by t.length

/- Read the items after an opening bracket. -/
def array
    (item : Reader α)
    (t : Text) : Reading (List α) :=
  match Text.dropBlanks t with
  | ']' :: r => .ok ([], r)
  | _ => items item t

/- Reading items takes at least one character. -/
theorem length_lt_of_items
    {item : Reader α}
    {t r : Text}
    {as : List α}
    (h : items item t = .ok (as, r)) :
    r.length < t.length := by
  fun_induction items item t generalizing as r with
  | case1 => simp at h
  | case2 => simp at h
  | case3 t a r₁ hItem r₂ hRest hShort as' r₃ hMore ih =>
      have hLast := ih hMore
      simp only [Except.ok.injEq, Prod.mk.injEq] at h
      obtain ⟨_, rfl⟩ := h
      omega
  | case4 t a r₁ hItem r₂ hRest =>
      simp only [Except.ok.injEq, Prod.mk.injEq] at h
      obtain ⟨_, rfl⟩ := h
      exact length_lt_of_read hItem hRest
  | case5 => simp at h

/- Reading an array takes at least one character. -/
theorem length_lt_of_array
    {item : Reader α}
    {t r : Text}
    {as : List α}
    (h : array item t = .ok (as, r)) :
    r.length < t.length := by
  unfold array at h
  split at h
  case h_1 r' hClose =>
    have hFront := Text.length_dropBlanks_le t
    rw [hClose, List.length_cons] at hFront
    simp only [Except.ok.injEq, Prod.mk.injEq] at h
    obtain ⟨_, rfl⟩ := h
    omega
  case h_2 =>
    exact length_lt_of_items h

end Reader

end StackCalc
